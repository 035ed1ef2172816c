import Decaf.Proofs.BareFindings
import Decaf.Proofs.Listings
import Decaf.Proofs.Lossless
import Decaf.Proofs.ParallelParse
import Decaf.Proofs.ParsedText

namespace Decaf

/-- The spans of the tokens with one index. -/
def Paired (ts us : List Token) (a b : Span) : Prop :=
  ∃ i : Nat, (ts.map Token.span)[i]? = some a ∧ (us.map Token.span)[i]? = some b

/-- The token with the index `i`, and no other, has the span `a`. -/
def OnlyAt (ts : List Token) (i : Nat) (a : Span) : Prop :=
  ∀ j : Nat, (ts.map Token.span)[j]? = some a ↔ j = i

section Streams

variable {ρ : Span → Span → Prop} {text text' : String} {ts us : List Token}

theorem forall₂_alike (hkinds : ts.map Token.kind = us.map Token.kind)
    (hspans : ∀ (i : Nat) (t u : Token), ts[i]? = some t → us[i]? = some u → ρ t.span u.span) :
    List.Forall₂ (Token.Alike ρ) ts us := by
  induction ts generalizing us with
  | nil =>
    rw [List.map_eq_nil_iff.1 hkinds.symm]
    exact .nil
  | cons t ts ih =>
    obtain ⟨u, us, rfl, hu, hothers⟩ := List.map_eq_cons_iff.1 hkinds.symm
    apply List.Forall₂.cons
    · exact ⟨hu.symm, hspans 0 t u rfl rfl⟩
    · apply ih hothers.symm
      intro i v w hv hw
      exact hspans (i + 1) v w hv hw

theorem ofText_alike (hts : (Lexer.ofText text).lexemes = ts.map .ok)
    (hus : (Lexer.ofText text').lexemes = us.map .ok) (h : List.Forall₂ (Token.Alike ρ) ts us)
    (hend : ρ (Lexer.ofText text).eof.span (Lexer.ofText text').eof.span) :
    ∃ s t, TokenStream.ofText text = .ok s ∧ TokenStream.ofText text' = .ok t ∧ s.Alike ρ t := by
  unfold TokenStream.ofText
  dsimp only
  rw [hts, hus]
  cases h with
  | nil => exact ⟨_, _, rfl, rfl, ⟨rfl, hend⟩, .nil, hend⟩
  | cons hfirst hothers =>
    have hrest := List.forall₂_map_left_iff.2 (List.forall₂_map_right_iff.2
      (hothers.imp fun _ _ => Lexeme.Alike.token))
    exact ⟨_, _, rfl, rfl, hfirst, hrest, hend⟩

/-- Texts with the same kinds of tokens are read as alike streams. -/
theorem ofText_alike_of_kinds (hts : tokenize text = .ok ts) (hus : tokenize text' = .ok us)
    (hkinds : ts.map Token.kind = us.map Token.kind) :
    ∃ s t, TokenStream.ofText text = .ok s ∧ TokenStream.ofText text' = .ok t ∧
      s.Alike (Paired ts us) t := by
  obtain ⟨vs, hvs, rfl⟩ := tokenize_eq_ok_iff.1 hts
  obtain ⟨ws, hws, rfl⟩ := tokenize_eq_ok_iff.1 hus
  rw [List.map_append, List.map_append] at hkinds
  have hfront : vs.map Token.kind = ws.map Token.kind := (List.append_inj' hkinds rfl).1
  have hlength : vs.length = ws.length := by simpa using congrArg List.length hfront
  apply ofText_alike hvs hws
  · apply forall₂_alike hfront
    intro i t u ht hu
    obtain ⟨hi, -⟩ := List.getElem?_eq_some_iff.1 ht
    refine ⟨i, ?_, ?_⟩
    · rw [List.getElem?_map, List.getElem?_append_left hi, ht, Option.map_some]
    · rw [List.getElem?_map, List.getElem?_append_left (by omega), hu, Option.map_some]
  · refine ⟨vs.length, ?_, ?_⟩
    · simp
    · simp [hlength]

end Streams

theorem tokenize_starts_lt {text : String} {ts : List Token} (h : tokenize text = .ok ts) :
    ts.Pairwise fun t u => t.span.start < u.span.start := by
  obtain ⟨us, hus, rfl⟩ := tokenize_eq_ok_iff.1 h
  have hlossless := lexemes_lossless text
  rw [hus] at hlossless
  have hnonempty : ∀ t ∈ us, t.span.start < t.span.stop :=
    fun t ht => hlossless.nonempty (.ok t) (List.mem_map_of_mem ht)
  have hend : (Lexer.ofText text).eof.span.start = text.utf8ByteSize :=
    (Nat.zero_add _).trans (byteLength_toList text)
  rw [List.pairwise_append]
  refine ⟨?_, List.pairwise_singleton _ _, ?_⟩
  · have happart : us.Pairwise fun t u => t.span.stop ≤ u.span.start :=
      List.pairwise_map.1 hlossless.apart
    apply happart.imp_of_mem
    intro t u ht _ hle
    have hlt := hnonempty t ht
    omega
  · intro t ht u hu
    rw [List.mem_singleton.1 hu, hend]
    have hlt := hnonempty t ht
    have hinside : t.span.stop ≤ text.utf8ByteSize :=
      hlossless.inside (.ok t) (List.mem_map_of_mem ht)
    omega

theorem onlyAt_of_tokenize {text : String} {ts : List Token} (h : tokenize text = .ok ts) {i : Nat}
    {a : Span} (hi : (ts.map Token.span)[i]? = some a) : OnlyAt ts i a := by
  have hnodup : (ts.map Token.span).Nodup := by
    apply List.pairwise_map.2
    apply (tokenize_starts_lt h).imp
    intro t u hlt heq
    rw [heq] at hlt
    omega
  obtain ⟨hlt, -⟩ := List.getElem?_eq_some_iff.1 hi
  intro j
  rw [← hi, eq_comm, List.getElem?_inj hlt hnodup, eq_comm]

theorem check_result {text : String} {ts : List Token} (h : tokenize text = .ok ts)
    (options : CheckOptions) (name : String) :
    (check options ⟨name, text⟩).result =
      ((parseProgram text).mapError Failure.ofParseError).map (analyze options.rules) := by
  obtain ⟨rules, tokens, tree⟩ := options
  cases tokens with
  | false => exact check_result_plain rules tree ⟨name, text⟩
  | true =>
    rw [check_result_listed, h]
    rfl

/-- Under one set of rules texts with the same kinds of tokens have the same defects, or the same
fault at the same token, whatever their files are called and whatever is listed on the way. -/
theorem layout_irrelevant {text text' : String} {ts us : List Token}
    (hts : tokenize text = .ok ts) (hus : tokenize text' = .ok us)
    (hkinds : ts.map Token.kind = us.map Token.kind) (options options' : CheckOptions)
    (hrules : options.rules = options'.rules) (name name' : String) :
    (∃ p q ds es, parseProgram text = .ok p ∧ parseProgram text' = .ok q ∧ p.bare = q.bare ∧
      (check options ⟨name, text⟩).result = .ok ds ∧
      (check options' ⟨name', text'⟩).result = .ok es ∧
      ds.map Diagnostic.defect = es.map Diagnostic.defect) ∨
    ∃ fault i a b, OnlyAt ts i a ∧ OnlyAt us i b ∧
      parseProgram text = .error (.grammar fault a) ∧
      parseProgram text' = .error (.grammar fault b) ∧
      (check options ⟨name, text⟩).result = .error (.parser fault.message a) ∧
      (check options' ⟨name', text'⟩).result = .error (.parser fault.message b) := by
  obtain ⟨s, t, hs, ht, hst⟩ := ofText_alike_of_kinds hts hus hkinds
  have hparse : parseProgram text = s.parse.1 := by rw [parseProgram, hs]
  have hparse' : parseProgram text' = t.parse.1 := by rw [parseProgram, ht]
  rw [check_result hts, check_result hus, hparse, hparse']
  rcases hst.parse with ⟨p, q, hp, hq, hbare⟩ | ⟨fault, a, b, ha, hb, i, hi, hi'⟩
  · left
    rw [hp, hq]
    refine ⟨p, q, _, _, rfl, rfl, hbare, rfl, rfl, ?_⟩
    rw [← hrules]
    exact Program.map_defect_analyze_congr hbare options.rules
  · right
    rw [ha, hb]
    exact ⟨fault, i, a, b, onlyAt_of_tokenize hts hi, onlyAt_of_tokenize hus hi', rfl, rfl, rfl,
      rfl⟩

theorem layout_irrelevant_broken_lines :
    ∃ ts us es, tokenize "class P\x7bint a[0];\x7d" = .ok ts ∧
      tokenize "class P \x7b // no size\n  int a [0];\n\x7d" = .ok us ∧
      ts.map Token.kind = us.map Token.kind ∧
      (check ⟨.standard, true, false⟩
        ⟨"b", "class P \x7b // no size\n  int a [0];\n\x7d"⟩).result = .ok es ∧
      es.map Diagnostic.defect = [.invalidArraySize "a" "0", .missingMainMethod] := by
  have hkinds : (tokenize "class P\x7bint a[0];\x7d").map (List.map Token.kind) =
      (tokenize "class P \x7b // no size\n  int a [0];\n\x7d").map (List.map Token.kind) := by
    cbv
  have hdefects : ((parseProgram "class P\x7bint a[0];\x7d").map (analyze .standard)).map
      (List.map Diagnostic.defect) = .ok [.invalidArraySize "a" "0", .missingMainMethod] := by
    cbv
  have hread : (tokenize "class P\x7bint a[0];\x7d").isOk = true := by cbv
  cases hts : tokenize "class P\x7bint a[0];\x7d" with
  | error e =>
    rw [hts] at hread
    cases hread
  | ok ts =>
    cases hus : tokenize "class P \x7b // no size\n  int a [0];\n\x7d" with
    | error e =>
      rw [hts, hus] at hkinds
      cases hkinds
    | ok us =>
      rw [hts, hus] at hkinds
      have hmap := Except.ok.inj hkinds
      rcases layout_irrelevant hts hus hmap ⟨.standard, false, false⟩ ⟨.standard, true, false⟩ rfl
        "a" "b" with ⟨p, _, ds, es, hp, -, -, hds, hes, hsame⟩ | ⟨_, _, _, _, -, -, hfail, -⟩
      · rw [check_result hts, hp] at hds
        rw [hp] at hdefects
        refine ⟨ts, us, es, rfl, rfl, hmap, hes, ?_⟩
        rw [← hsame, ← Except.ok.inj hds]
        exact Except.ok.inj hdefects
      · rw [hfail] at hdefects
        cases hdefects

end Decaf
