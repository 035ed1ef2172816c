import Decaf.Proofs.NodeSpans
import Mathlib.Data.List.Infix

namespace Decaf

attribute [ext] Span

namespace Span

/-- From the least start to the greatest end, on the line of the first span in the list that has
the least start. -/
structure Hull (spans : List Span) (a : Span) : Prop where
  start : (spans.map Span.start).min? = some a.start
  stop : (spans.map Span.stop).max? = some a.stop
  line : (spans.find? (·.start = a.start)).map Span.line = some a.line

instance (spans : List Span) (a : Span) : Decidable (Hull spans a) :=
  decidable_of_iff ((spans.map Span.start).min? = some a.start ∧
      (spans.map Span.stop).max? = some a.stop ∧
      (spans.find? (·.start = a.start)).map Span.line = some a.line)
    ⟨fun h => ⟨h.1, h.2.1, h.2.2⟩, fun h => ⟨h.start, h.stop, h.line⟩⟩

namespace Hull

variable {xs ys : List Span} {a b s : Span}

theorem unique (ha : Hull xs a) (hb : Hull xs b) : a = b := by
  have hstart : a.start = b.start := Option.some.inj (ha.start.symm.trans hb.start)
  have hstop : a.stop = b.stop := Option.some.inj (ha.stop.symm.trans hb.stop)
  have hline := hb.line
  rw [← hstart, ha.line] at hline
  exact Span.ext hstart hstop (Option.some.inj hline)

theorem single (a : Span) : Hull [a] a := by
  constructor <;> simp

theorem start_le (h : Hull xs a) (hs : s ∈ xs) : a.start ≤ s.start :=
  (List.min?_eq_some_iff.mp h.start).2 s.start (List.mem_map_of_mem hs)

theorem stop_le (h : Hull xs a) (hs : s ∈ xs) : s.stop ≤ a.stop :=
  (List.max?_eq_some_iff.mp h.stop).2 s.stop (List.mem_map_of_mem hs)

theorem exists_stop (h : Hull xs a) : ∃ s ∈ xs, s.stop = a.stop :=
  List.mem_map.mp (List.max?_eq_some_iff.mp h.stop).1

theorem exists_first (h : Hull xs a) :
    ∃ s ∈ xs, s.start = a.start ∧ s.line = a.line := by
  obtain ⟨s, hfind, hline⟩ := Option.map_eq_some_iff.mp h.line
  have hstart : s.start = a.start := by simpa using List.find?_some hfind
  exact ⟨s, List.mem_of_find?_eq_some hfind, hstart, hline⟩

section Lines

variable (lineAt : Nat → Nat) (hlines : ∀ s ∈ xs, s.line = lineAt s.start)

include hlines

theorem line_eq (h : Hull xs a) : a.line = lineAt a.start := by
  obtain ⟨s, hs, hstart, hline⟩ := h.exists_first
  rw [← hline, ← hstart, hlines s hs]

theorem ties_agree (h : Hull xs a) : ∀ s ∈ xs, s.start = a.start → s.line = a.line := by
  intro s hs hstart
  rw [hlines s hs, hstart, h.line_eq lineAt hlines]

end Lines

theorem line_of_head (h : Hull (s :: xs) a) (hs : s.start = a.start) : a.line = s.line := by
  have hfind : (s :: xs).find? (·.start = a.start) = some s := List.find?_cons_of_pos (by simpa)
  have hline := h.line
  rw [hfind] at hline
  exact (Option.some.inj hline).symm

/-- Two lists in a row. The first of them decides on the line unless all of it starts behind the
second. -/
theorem append (ha : Hull xs a) (hb : Hull ys b) : Hull (xs ++ ys) (a.merge b) := by
  constructor
  case start =>
    obtain ⟨hmem, hle⟩ := List.min?_eq_some_iff.mp ha.start
    obtain ⟨hmem', hle'⟩ := List.min?_eq_some_iff.mp hb.start
    rw [List.map_append, List.min?_eq_some_iff]
    grind [merge]
  case stop =>
    obtain ⟨hmem, hle⟩ := List.max?_eq_some_iff.mp ha.stop
    obtain ⟨hmem', hle'⟩ := List.max?_eq_some_iff.mp hb.stop
    rw [List.map_append, List.max?_eq_some_iff]
    grind [merge]
  case line =>
    rw [List.find?_append]
    by_cases hle : a.start ≤ b.start
    · have hstart : (a.merge b).start = a.start := Nat.min_eq_left hle
      obtain ⟨first, hfind, hline⟩ := Option.map_eq_some_iff.mp ha.line
      rw [hstart, hfind, Option.some_or, Option.map_some, hline, merge, if_pos hle]
    · have hstart : (a.merge b).start = b.start := Nat.min_eq_right (Nat.le_of_not_le hle)
      have hnone : xs.find? (·.start = b.start) = none := by
        refine List.find?_eq_none.mpr fun s hs heq => hle ?_
        exact of_decide_eq_true heq ▸ ha.start_le hs
      rw [hstart, hnone, Option.none_or, hb.line, merge, if_neg hle]

theorem mono (ha : Hull xs a) (hb : Hull ys b) (h : xs ⊆ ys) :
    b.start ≤ a.start ∧ a.stop ≤ b.stop := by
  obtain ⟨s, hs, hstart, -⟩ := ha.exists_first
  obtain ⟨t, ht, hstop⟩ := ha.exists_stop
  exact ⟨hstart ▸ hb.start_le (h hs), hstop ▸ hb.stop_le (h ht)⟩

/-- Lists of the same spans, in any order and however often, have one hull if the spans with the
least start agree on the line. -/
theorem eq_of_subset (ha : Hull xs a) (hb : Hull ys b) (hxy : xs ⊆ ys) (hyx : ys ⊆ xs)
    (hties : ∀ s ∈ xs, s.start = a.start → s.line = a.line) : b = a := by
  obtain ⟨hstart, hstop⟩ := ha.mono hb hxy
  obtain ⟨hstart', hstop'⟩ := hb.mono ha hyx
  have heq : b.start = a.start := Nat.le_antisymm hstart hstart'
  obtain ⟨t, ht, hfirst, hline⟩ := hb.exists_first
  have hline' : t.line = a.line := hties t (hyx ht) (hfirst.trans heq)
  exact Span.ext heq (Nat.le_antisymm hstop' hstop) (hline.symm.trans hline')

theorem foldl (h : Hull xs a) (more : List Span) : Hull (xs ++ more) (more.foldl merge a) := by
  induction more generalizing xs a with
  | nil => rwa [List.append_nil]
  | cons s more ih =>
    have hnext := ih (h.append (.single s))
    rwa [List.append_assoc] at hnext

end Hull

theorem merge_assoc (a b c : Span) : (a.merge b).merge c = a.merge (b.merge c) :=
  (((Hull.single a).append (.single b)).append (.single c)).unique
    ((Hull.single a).append ((Hull.single b).append (.single c)))

theorem merge_self (a : Span) : a.merge a = a :=
  Span.ext (Nat.min_self _) (Nat.max_self _) (if_pos (Nat.le_refl _))

theorem merge_comm_iff (a b : Span) :
    a.merge b = b.merge a ↔ (a.start = b.start → a.line = b.line) := by
  constructor
  · intro h htie
    have hline := congrArg Span.line h
    rwa [merge, merge, if_pos htie.le, if_pos htie.ge] at hline
  · intro h
    apply Span.ext
    · exact Nat.min_comm _ _
    · exact Nat.max_comm _ _
    · rw [merge, merge]
      rcases Nat.lt_trichotomy a.start b.start with hlt | htie | hlt
      · rw [if_pos hlt.le, if_neg hlt.not_ge]
      · rw [if_pos htie.le, if_pos htie.ge, h htie]
      · rw [if_neg hlt.not_ge, if_pos hlt.le]

example : (⟨2, 2, 1⟩ : Span).merge ⟨2, 7, 5⟩ ≠ (⟨2, 7, 5⟩ : Span).merge ⟨2, 2, 1⟩ := by decide

/-- The entries of a running merge are the merges of the beginnings of the list. -/
theorem runningMerge_eq_map_foldl (first : Span) (rest : List Span) :
    first.runningMerge rest = rest.inits.map (·.foldl merge first) := by
  induction rest generalizing first with
  | nil => rfl
  | cons s rest ih =>
    rw [runningMerge, ih, List.inits_cons, List.map_cons, List.map_map]
    rfl

theorem foldl_merge_eq_iff_hull (first : Span) (rest : List Span) (a : Span) :
    rest.foldl merge first = a ↔ Hull (first :: rest) a := by
  have hfold : Hull (first :: rest) (rest.foldl merge first) := (Hull.single first).foldl rest
  constructor
  · rintro rfl
    exact hfold
  · exact hfold.unique

example : Hull [⟨9, 4, 3⟩, ⟨2, 2, 1⟩, ⟨2, 7, 5⟩] ⟨2, 7, 1⟩ := by decide

theorem foldl_merge_perm_iff (first : Span) (rest : List Span) :
    (∀ first' rest', (first' :: rest').Perm (first :: rest) →
        rest'.foldl merge first' = rest.foldl merge first) ↔
      ∀ s ∈ first :: rest, s.start = (rest.foldl merge first).start →
        s.line = (rest.foldl merge first).line := by
  have hfold := (foldl_merge_eq_iff_hull first rest _).mp rfl
  constructor
  · intro h s hs hstart
    -- With `s` in front, its line is the line of the merge.
    have heq := h s ((first :: rest).erase s) (List.perm_cons_erase hs).symm
    exact (((foldl_merge_eq_iff_hull _ _ _).mp heq).line_of_head hstart).symm
  · intro hties first' rest' hperm
    have hfold' := (foldl_merge_eq_iff_hull first' rest' _).mp rfl
    exact hfold.eq_of_subset hfold' hperm.symm.subset hperm.subset hties

/-- Merging is associative and idempotent on all spans, also on empty and reversed ones. A running
merge consists of the merges of the beginnings of the list, and a list is merged to its hull and to
nothing else. Where the line depends on the start alone, two spans may change places, and so may
all those of a list; what they are merged to is again on the line of its start. -/
theorem merge_takes_hulls :
    (∀ a b c : Span, (a.merge b).merge c = a.merge (b.merge c)) ∧
    (∀ a : Span, a.merge a = a) ∧
    (∀ (first : Span) (rest : List Span),
      first.runningMerge rest = rest.inits.map (·.foldl merge first)) ∧
    (∀ first rest a, rest.foldl merge first = a ↔ Hull (first :: rest) a) ∧
    ∀ lineAt : Nat → Nat,
      (∀ a b : Span, a.line = lineAt a.start → b.line = lineAt b.start →
        a.merge b = b.merge a) ∧
      ∀ first rest, (∀ s ∈ first :: rest, s.line = lineAt s.start) →
        (rest.foldl merge first).line = lineAt (rest.foldl merge first).start ∧
        ∀ first' rest', (first' :: rest').Perm (first :: rest) →
          rest'.foldl merge first' = rest.foldl merge first := by
  refine ⟨merge_assoc, merge_self, runningMerge_eq_map_foldl, foldl_merge_eq_iff_hull, ?_⟩
  intro lineAt
  constructor
  · intro a b ha hb
    refine (merge_comm_iff a b).mpr fun htie => ?_
    rw [ha, hb, htie]
  · intro first rest hlines
    have hhull := (foldl_merge_eq_iff_hull first rest _).mp rfl
    exact ⟨hhull.line_eq lineAt hlines,
      (foldl_merge_perm_iff first rest).mpr (hhull.ties_agree lineAt hlines)⟩

theorem merge_takes_hulls_reversed :
    (∀ s ∈ [(⟨9, 4, 3⟩ : Span), ⟨2, 2, 1⟩, ⟨2, 7, 1⟩], s.line = if s.start < 5 then 1 else 3) ∧
    [(⟨2, 7, 1⟩ : Span), ⟨9, 4, 3⟩, ⟨2, 2, 1⟩].Perm [⟨9, 4, 3⟩, ⟨2, 2, 1⟩, ⟨2, 7, 1⟩] ∧
    [⟨9, 4, 3⟩, ⟨2, 2, 1⟩].foldl merge ⟨2, 7, 1⟩ =
      [⟨2, 2, 1⟩, ⟨2, 7, 1⟩].foldl merge ⟨9, 4, 3⟩ ∧
    (⟨9, 4, 3⟩ : Span).runningMerge [⟨2, 2, 1⟩, ⟨2, 7, 1⟩] =
      [⟨9, 4, 3⟩, ⟨2, 4, 1⟩, ⟨2, 7, 1⟩] := by
  obtain ⟨-, -, -, -, hlined⟩ := merge_takes_hulls
  have hlines : ∀ s ∈ [(⟨9, 4, 3⟩ : Span), ⟨2, 2, 1⟩, ⟨2, 7, 1⟩],
      s.line = if s.start < 5 then 1 else 3 := by
    decide
  have hperm : [(⟨2, 7, 1⟩ : Span), ⟨9, 4, 3⟩, ⟨2, 2, 1⟩].Perm
      [⟨9, 4, 3⟩, ⟨2, 2, 1⟩, ⟨2, 7, 1⟩] := by
    decide
  obtain ⟨-, horder⟩ := (hlined fun n => if n < 5 then 1 else 3).2 ⟨9, 4, 3⟩ _ hlines
  exact ⟨hlines, hperm, horder _ _ hperm, rfl⟩

end Span

/-- The span of tokens that lie one behind the other is their hull. -/
theorem Covers.hull {ts : List Token} {a : Span} (h : Covers ts a) (hts : InOrder ts) :
    Span.Hull (ts.map Token.span) a := by
  obtain ⟨first, last, hfirst, hlast, hstart, hstop, hline⟩ := h
  obtain ⟨rest, rfl⟩ := List.head?_eq_some_iff.mp hfirst
  have hmem : ∀ {t}, t ∈ first :: rest → t.span ∈ (first :: rest).map Token.span :=
    List.mem_map_of_mem
  constructor
  case start =>
    refine List.min?_eq_some_iff.mpr ⟨?_, ?_⟩
    · exact List.mem_map.mpr ⟨first.span, hmem (List.mem_of_head? hfirst), hstart.symm⟩
    · simp only [List.map_map, List.forall_mem_map, hstart]
      exact fun t ht => hts.head_le hfirst ht
  case stop =>
    refine List.max?_eq_some_iff.mpr ⟨?_, ?_⟩
    · exact List.mem_map.mpr ⟨last.span, hmem (List.mem_of_getLast? hlast), hstop.symm⟩
    · simp only [List.map_map, List.forall_mem_map, hstop]
      exact fun t ht => hts.le_last hlast ht
  case line =>
    rw [List.map_cons, List.find?_cons_of_pos (by simp [hstart]), Option.map_some, hline]

/-- The span of a node of a parsed tree is what the spans of all tokens of the node are merged to,
whichever of them is merged first. -/
theorem parseProgram_spans_merged {text : String} {p : Program} {n : Node}
    (h : parseProgram text = .ok p) (hn : (Node.program p).Within n) :
    ∃ before seg after, (Lexer.ofText text).lexemes = (before ++ (seg ++ after)).map .ok ∧
      n.Spelled seg ∧ Span.Hull (seg.map Token.span) n.span ∧
      ∀ t ts, (t :: ts).Perm seg → (ts.map Token.span).foldl Span.merge t.span = n.span := by
  obtain ⟨ts, hts, hp⟩ := parseProgram_eq_ok_iff_spelled.1 h
  obtain ⟨before, seg, after, rfl, hspelled⟩ := hn.exists_segment hp
  obtain ⟨horder, hlines⟩ := inOrder_of_lexemes hts
  have hseg : InOrder seg := horder.append_right.append_left
  have hhull := (hspelled.covers hseg).hull hseg
  have hlined : ∀ s ∈ seg.map Token.span, s.line = 1 + feedsBefore text s.start := by
    simp only [List.forall_mem_map]
    exact fun t ht => hlines t (List.mem_append_right _ (List.mem_append_left _ ht))
  refine ⟨before, seg, after, hts, hspelled, hhull, ?_⟩
  intro t ts hperm
  have hperm' : (t.span :: ts.map Token.span).Perm (seg.map Token.span) := hperm.map Token.span
  have hmerged := (Span.foldl_merge_eq_iff_hull t.span (ts.map Token.span) _).mp rfl
  exact hhull.eq_of_subset hmerged hperm'.symm.subset hperm'.subset
    (hhull.ties_agree (1 + feedsBefore text ·) hlined)

end Decaf
