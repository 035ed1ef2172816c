import Decaf.Proofs.Lexical

namespace Decaf.Lexical

open scoped Computability

section Longest

variable {l : Language Char} {text v w : List Char}

theorem eq_of_isPrefix (hv : v <+: text) (hw : w <+: text) (h : v.length = w.length) : v = w :=
  (List.prefix_of_prefix_length_le hv hw (Nat.le_of_eq h)).eq_of_length h

theorem Longest.unique (hv : Longest l text v) (hw : Longest l text w) : v = w :=
  eq_of_isPrefix hv.isPrefix hw.isPrefix
    (Nat.le_antisymm (hw.max v hv.mem hv.isPrefix) (hv.max w hw.mem hw.isPrefix))

theorem longest_take {n : Nat} (hmem : text.take n ∈ l)
    (hmax : ∀ v ∈ l, v <+: text → v.length ≤ n) : Longest l text (text.take n) := by
  refine ⟨hmem, List.take_prefix n text, ?_⟩
  intro v hv hprefix
  rw [List.length_take]
  exact Nat.le_min.2 ⟨hmax v hv hprefix, hprefix.length_le⟩

theorem length_le_takeWhile {p : Char → Bool} (hv : ∀ c ∈ v, p c = true) (h : v <+: text) :
    v.length ≤ (text.takeWhile p).length := by
  obtain ⟨rest, rfl⟩ := h
  rw [List.takeWhile_append_of_pos hv, List.length_append]
  exact Nat.le_add_right _ _

theorem take_length_takeWhile (p : Char → Bool) (text : List Char) :
    text.take (text.takeWhile p).length = text.takeWhile p :=
  (List.prefix_iff_eq_take.1 (List.takeWhile_prefix p)).symm

theorem take_run (p : Char → Bool) (c : Char) (cs : List Char) :
    (c :: cs).take ((cs.takeWhile p).length + 1) = c :: cs.takeWhile p := by
  rw [List.take_succ_cons, take_length_takeWhile]

end Longest

section Strings

theorem take_stringBodyLength_mem (cs : List Char) :
    cs.take (stringBodyLength cs) ∈ stringItem∗ := by
  fun_induction stringBodyLength cs with
  | case1 => exact Language.nil_mem_kstar _
  | case2 c cs hc ih =>
    exact append_mem_kstar (x := [c]) (mem_stringItem.2 (.inl ⟨c, hc, rfl⟩)) ih
  | case3 e rest he _ ih =>
    exact append_mem_kstar (x := ['\\', e]) (mem_stringItem.2 (.inr ⟨e, he, rfl⟩)) ih
  | case4 => exact Language.nil_mem_kstar _
  | case5 => exact Language.nil_mem_kstar _

theorem stringBodyLength_body {c : Char} (hc : isStringBody c = true) (cs : List Char) :
    stringBodyLength (c :: cs) = stringBodyLength cs + 1 := by
  conv_lhs => unfold stringBodyLength
  rw [if_pos hc]

theorem stringBodyLength_escape {e : Char} (he : isEscape e = true) (cs : List Char) :
    stringBodyLength ('\\' :: e :: cs) = stringBodyLength cs + 2 := by
  rw [stringBodyLength, if_neg (by decide)]
  exact if_pos he

theorem stringBodyLength_append {body : List Char} (h : body ∈ stringItem∗) (rest : List Char) :
    stringBodyLength (body ++ rest) = body.length + stringBodyLength rest := by
  refine kstar_induction
    (motive := fun body => stringBodyLength (body ++ rest) = body.length + stringBodyLength rest)
    (by simp) ?_ h
  intro x hx y _ ih
  obtain ⟨c, hc, rfl⟩ | ⟨e, he, rfl⟩ := mem_stringItem.1 hx
  · rw [List.append_assoc, List.singleton_append, stringBodyLength_body hc, ih]
    simp
    omega
  · change stringBodyLength ('\\' :: e :: (y ++ rest)) = _
    rw [stringBodyLength_escape he, ih]
    simp
    omega

theorem longest_stringBody (cs : List Char) :
    Longest stringItem∗ cs (cs.take (stringBodyLength cs)) := by
  refine longest_take (take_stringBodyLength_mem cs) ?_
  rintro v hv ⟨rest, rfl⟩
  rw [stringBodyLength_append hv]
  exact Nat.le_add_right _ _

end Strings

section Trivia

theorem mem_triviaItem {w : List Char} :
    w ∈ one (· ∈ [' ', '\t', '\n', '\r', '\x0c']) + only ['/', '/'] * (one (· ≠ '\n'))∗ ↔
      (∃ c, isBlank c = true ∧ w = [c]) ∨
        ∃ body, (∀ c ∈ body, c ≠ '\n') ∧ w = '/' :: '/' :: body := by
  simp only [Language.mem_add, Language.mem_mul, mem_one, mem_only, mem_kstar_one, isBlank_iff]
  constructor
  · rintro (⟨c, hc, rfl⟩ | ⟨_, rfl, body, hbody, rfl⟩)
    · exact .inl ⟨c, hc, rfl⟩
    · exact .inr ⟨body, hbody, rfl⟩
  · rintro (⟨c, hc, rfl⟩ | ⟨body, hbody, rfl⟩)
    · exact .inl ⟨c, hc, rfl⟩
    · exact .inr ⟨_, rfl, body, hbody, rfl⟩

mutual

theorem take_triviaLength_mem : (cs : List Char) → cs.take (triviaLength cs) ∈ trivia
  | [] => Language.nil_mem_kstar _
  | c :: cs => by
    unfold triviaLength
    split
    · next hc =>
      exact append_mem_kstar (x := [c]) (mem_triviaItem.2 (.inl ⟨c, hc, rfl⟩))
        (take_triviaLength_mem cs)
    · split
      · next rest _ =>
        obtain ⟨body, hbody, y, hy, heq⟩ := take_commentLength_mem rest
        change '/' :: '/' :: rest.take (commentLength rest) ∈ trivia
        rw [← heq]
        exact append_mem_kstar (x := '/' :: '/' :: body)
          (mem_triviaItem.2 (.inr ⟨body, hbody, rfl⟩)) hy
      · exact Language.nil_mem_kstar _

theorem take_commentLength_mem : (cs : List Char) →
    ∃ body, (∀ c ∈ body, c ≠ '\n') ∧ ∃ y ∈ trivia, body ++ y = cs.take (commentLength cs)
  | [] => ⟨[], by simp, [], Language.nil_mem_kstar _, rfl⟩
  | c :: cs => by
    rw [commentLength]
    split
    · next hc =>
      subst hc
      refine ⟨[], by simp, '\n' :: cs.take (triviaLength cs), ?_, rfl⟩
      exact append_mem_kstar (x := ['\n']) (mem_triviaItem.2 (.inl ⟨'\n', rfl, rfl⟩))
        (take_triviaLength_mem cs)
    · next hc =>
      obtain ⟨body, hbody, y, hy, heq⟩ := take_commentLength_mem cs
      exact ⟨c :: body, List.forall_mem_cons.2 ⟨hc, hbody⟩, y, hy, congrArg (c :: ·) heq⟩

end

theorem triviaLength_blank {c : Char} (hc : isBlank c = true) (cs : List Char) :
    triviaLength (c :: cs) = triviaLength cs + 1 := by
  conv_lhs => unfold triviaLength
  rw [if_pos hc]

/-- Inside a comment at least as much is skipped as outside. -/
theorem triviaLength_le_commentLength (cs : List Char) : triviaLength cs ≤ commentLength cs := by
  induction cs with
  | nil => exact Nat.le_refl _
  | cons c cs ih =>
    unfold triviaLength
    split
    · rw [commentLength]
      split
      · exact Nat.le_refl _
      · exact Nat.succ_le_succ ih
    · split
      · simp [commentLength]
      · exact Nat.zero_le _

theorem length_add_le_commentLength {body : List Char} (h : ∀ c ∈ body, c ≠ '\n')
    (rest : List Char) : body.length + triviaLength rest ≤ commentLength (body ++ rest) := by
  induction body with
  | nil =>
    rw [List.length_nil, Nat.zero_add]
    exact triviaLength_le_commentLength rest
  | cons c body ih =>
    obtain ⟨hc, hbody⟩ := List.forall_mem_cons.1 h
    have := ih hbody
    rw [List.cons_append, commentLength, if_neg hc, List.length_cons]
    omega

theorem length_add_le_triviaLength {v : List Char} (h : v ∈ trivia) (rest : List Char) :
    v.length + triviaLength rest ≤ triviaLength (v ++ rest) := by
  -- No equation, since a comment at the end of `v` goes on in `rest`.
  refine kstar_induction
    (motive := fun v => v.length + triviaLength rest ≤ triviaLength (v ++ rest)) (by simp) ?_ h
  intro x hx y _ ih
  obtain ⟨c, hc, rfl⟩ | ⟨body, hbody, rfl⟩ := mem_triviaItem.1 hx
  · have hskip : triviaLength ([c] ++ y ++ rest) = triviaLength (y ++ rest) + 1 :=
      triviaLength_blank hc _
    rw [hskip, List.length_append, List.length_singleton]
    omega
  · have hcomment := length_add_le_commentLength hbody (y ++ rest)
    have hskip : triviaLength ('/' :: '/' :: body ++ y ++ rest) =
        commentLength (body ++ (y ++ rest)) + 2 := by
      rw [List.append_assoc]
      rfl
    rw [hskip]
    simp only [List.length_append, List.length_cons]
    omega

theorem longest_trivia (cs : List Char) : Longest trivia cs (cs.take (triviaLength cs)) := by
  refine longest_take (take_triviaLength_mem cs) ?_
  rintro v hv ⟨rest, rfl⟩
  exact Nat.le_trans (Nat.le_add_right _ _) (length_add_le_triviaLength hv rest)

end Trivia

/-- Groups of patterns that start with the same characters. -/
inductive Family where
  | word
  | number
  | char
  | string
  | mark
deriving DecidableEq

def Family.ofChar (c : Char) : Family :=
  if isIdentStart c then .word
  else if c.isDigit then .number
  else if c = '\'' then .char
  else if c = '"' then .string
  else .mark

def TokenPattern.family : TokenPattern → Family
  | .keyword _ | .identifier => .word
  | .hexLiteral | .intLiteral => .number
  | .charLiteral => .char
  | .stringLiteral => .string
  | .punct _ => .mark

theorem not_identStart_of_isDigit {c : Char} (h : c.isDigit = true) : isIdentStart c = false := by
  obtain ⟨hlo, hhi⟩ := isDigit_iff.1 h
  rw [Bool.eq_false_iff]
  intro hstart
  have hletter := isIdentStart_iff.1 hstart
  simp only [letter, Char.le_def, UInt32.le_iff_toNat_le] at hlo hhi hletter
  rcases hletter with ⟨ha, -⟩ | ⟨ha, -⟩ | rfl
  · have := Nat.le_trans ha hhi
    revert this
    decide
  · have := Nat.le_trans ha hhi
    revert this
    decide
  · revert hhi
    decide

theorem Family.ofChar_digit {c : Char} (h : c.isDigit = true) : ofChar c = .number := by
  rw [ofChar, not_identStart_of_isDigit h]
  simp [h]

theorem keyword_eq_cons (word : Keyword) :
    ∃ c cs, word.text.toList = c :: cs ∧ isIdentStart c = true ∧
      ∀ d ∈ cs, isIdentPart d = true := by
  cases word <;> exact ⟨_, _, rfl, by decide, List.all_eq_true.1 rfl⟩

theorem punct_eq_cons (mark : Punct) :
    ∃ c cs, mark.text.toList = c :: cs ∧ Family.ofChar c = .mark := by
  cases mark <;> exact ⟨_, _, rfl, by decide⟩

theorem TokenPattern.mem_eq_cons {pattern : TokenPattern} {w : List Char}
    (h : w ∈ pattern.language) : ∃ c cs, w = c :: cs ∧ Family.ofChar c = pattern.family := by
  cases pattern with
  | keyword word =>
    obtain ⟨c, cs, hw, hc, -⟩ := keyword_eq_cons word
    exact ⟨c, cs, (mem_only.1 h).trans hw, if_pos hc⟩
  | punct mark =>
    obtain ⟨c, cs, hw, hc⟩ := punct_eq_cons mark
    exact ⟨c, cs, (mem_only.1 h).trans hw, hc⟩
  | identifier =>
    obtain ⟨c, cs, hw, hc, -⟩ := mem_identifier.1 h
    exact ⟨c, cs, hw, if_pos hc⟩
  | hexLiteral =>
    obtain ⟨hs, hw, -⟩ := mem_hexLiteral.1 h
    exact ⟨'0', _, hw, rfl⟩
  | intLiteral =>
    obtain ⟨c, cs, hw, hc, -⟩ := mem_intLiteral.1 h
    exact ⟨c, cs, hw, Family.ofChar_digit hc⟩
  | charLiteral =>
    obtain ⟨c, -, hw⟩ | ⟨e, -, hw⟩ := mem_charLiteral.1 h <;> exact ⟨'\'', _, hw, rfl⟩
  | stringLiteral =>
    obtain ⟨body, -, hw⟩ := mem_stringLiteral.1 h
    exact ⟨'"', _, hw, rfl⟩

theorem Matches.family {c : Char} {cs w : List Char} {pattern : TokenPattern}
    (h : Matches (c :: cs) pattern w) : pattern.family = .ofChar c := by
  obtain ⟨d, ds, rfl, hd⟩ := TokenPattern.mem_eq_cons h.mem
  obtain ⟨rfl, -⟩ := List.cons_prefix_cons.1 h.isPrefix
  exact hd.symm

/-- What a scan says about the text it looked at. -/
def Correct (text : List Char) : Scan → Prop
  | .token kind more => IsToken text kind (text.take (more + 1))
  | .invalid more =>
    (∀ pattern v, ¬ Matches text pattern v) ∧ IsInvalid text (text.take (more + 1))

/-- Only the patterns of the family of the first character have to be compared. -/
theorem correct_token (pattern : TokenPattern) {c : Char} {cs w : List Char} {more : Nat}
    (htake : (c :: cs).take (more + 1) = w) (hmem : w ∈ pattern.language)
    (hmax : ∀ other v, other.family = .ofChar c → Matches (c :: cs) other v →
      v.length ≤ w.length)
    (hword : pattern = .identifier → ∀ word : Keyword, w ≠ word.text.toList) :
    Correct (c :: cs) (.token (pattern.kind w) more) := by
  have hprefix : w <+: c :: cs := htake ▸ List.take_prefix _ _
  have htoken : IsToken (c :: cs) (pattern.kind w) w :=
    .mk ⟨hmem, hprefix⟩ (fun other v h => hmax other v h.family h) hword
  rw [Correct, htake]
  exact htoken

theorem textOf_eq {c : Char} {cs w : List Char} {more : Nat}
    (htake : (c :: cs).take (more + 1) = w) : textOf c cs more = String.ofList w :=
  congrArg String.ofList htake

theorem ofText?_eq_some_iff {word : String} {keyword : Keyword} :
    Keyword.ofText? word = some keyword ↔ keyword.text = word := by
  constructor
  · intro h
    unfold Keyword.ofText? at h
    simpa using List.find?_some h
  · rintro rfl
    cases keyword <;> rfl

theorem toList_ne_of_ofText? {w : List Char} (h : Keyword.ofText? (String.ofList w) = none)
    (word : Keyword) : w ≠ word.text.toList := by
  rintro rfl
  rw [String.ofList_toList, ofText?_eq_some_iff.2 rfl] at h
  cases h

theorem length_le_of_word {c : Char} {cs v : List Char} {pattern : TokenPattern}
    (hfamily : pattern.family = .word) (h : Matches (c :: cs) pattern v) :
    v.length ≤ (cs.takeWhile isIdentPart).length + 1 := by
  obtain ⟨d, ds, rfl, -, hds⟩ : ∃ d ds, v = d :: ds ∧ isIdentStart d = true ∧
      ∀ e ∈ ds, isIdentPart e = true := by
    cases pattern with
    | keyword word =>
      obtain ⟨d, ds, hw, hd⟩ := keyword_eq_cons word
      exact ⟨d, ds, (mem_only.1 h.mem).trans hw, hd⟩
    | identifier => exact TokenPattern.mem_identifier.1 h.mem
    | _ => cases hfamily
  have hprefix := (List.cons_prefix_cons.1 h.isPrefix).2
  exact Nat.succ_le_succ (length_le_takeWhile hds hprefix)

theorem scanWord_correct {c : Char} (hc : isIdentStart c = true) (cs : List Char) :
    Correct (c :: cs) (scanWord c cs) := by
  let run := cs.takeWhile isIdentPart
  have htake : (c :: cs).take (run.length + 1) = c :: run := take_run isIdentPart c cs
  have hmax : ∀ other v, other.family = .ofChar c → Matches (c :: cs) other v →
      v.length ≤ (c :: run).length := fun other v hfamily h =>
    length_le_of_word (hfamily.trans (if_pos hc)) h
  change Correct (c :: cs) (.token (wordKind (textOf c cs run.length)) run.length)
  rw [textOf_eq htake]
  unfold wordKind
  split
  · next keyword hkeyword =>
    have hw : c :: run = keyword.text.toList := by
      rw [ofText?_eq_some_iff.1 hkeyword, String.toList_ofList]
    exact correct_token (.keyword keyword) htake hw hmax nofun
  · next hnone =>
    have hmem : c :: run ∈ TokenPattern.identifier.language :=
      TokenPattern.mem_identifier.2 ⟨c, run, rfl, hc, List.all_eq_true.1 List.all_takeWhile⟩
    exact correct_token .identifier htake hmem hmax fun _ => toList_ne_of_ofText? hnone

theorem length_le_of_int {c : Char} {cs v : List Char}
    (h : Matches (c :: cs) .intLiteral v) : v.length ≤ (cs.takeWhile Char.isDigit).length + 1 := by
  obtain ⟨d, ds, rfl, -, hds⟩ := TokenPattern.mem_intLiteral.1 h.mem
  have hprefix := (List.cons_prefix_cons.1 h.isPrefix).2
  exact Nat.succ_le_succ (length_le_takeWhile hds hprefix)

theorem hex_cases {c : Char} {cs v : List Char} (h : Matches (c :: cs) .hexLiteral v) :
    ∃ hex, c = '0' ∧ cs = 'x' :: hex ∧ 0 < (hex.takeWhile isHexDigit).length ∧
      v.length ≤ (hex.takeWhile isHexDigit).length + 2 := by
  obtain ⟨hs, rfl, hne, hhs⟩ := TokenPattern.mem_hexLiteral.1 h.mem
  obtain ⟨rfl, hprefix⟩ := List.cons_prefix_cons.1 h.isPrefix
  cases cs with
  | nil => simp at hprefix
  | cons d hex =>
    obtain ⟨rfl, hdigits⟩ := List.cons_prefix_cons.1 hprefix
    have hle := length_le_takeWhile hhs hdigits
    have hpos := List.length_pos_iff.2 hne
    exact ⟨hex, rfl, rfl, by omega, by simpa using hle⟩

theorem decimal_correct {c : Char} {cs : List Char} (hc : c.isDigit = true)
    (hhex : ∀ v, ¬ Matches (c :: cs) .hexLiteral v) :
    Correct (c :: cs) (.token (.intLiteral (textOf c cs (cs.takeWhile Char.isDigit).length))
      (cs.takeWhile Char.isDigit).length) := by
  let run := cs.takeWhile Char.isDigit
  have htake : (c :: cs).take (run.length + 1) = c :: run := take_run Char.isDigit c cs
  have hmem : c :: run ∈ TokenPattern.intLiteral.language :=
    TokenPattern.mem_intLiteral.2 ⟨c, run, rfl, hc, List.all_eq_true.1 List.all_takeWhile⟩
  rw [textOf_eq htake]
  refine correct_token .intLiteral htake hmem ?_ nofun
  intro other v hfamily h
  rw [Family.ofChar_digit hc] at hfamily
  cases other with
  | hexLiteral => exact absurd h (hhex v)
  | intLiteral => exact length_le_of_int h
  | _ => cases hfamily

theorem hex_correct {hex : List Char} {digits : Nat}
    (hdigits : (hex.takeWhile isHexDigit).length = digits + 1) :
    Correct ('0' :: 'x' :: hex)
      (.token (.hexLiteral (textOf '0' ('x' :: hex) (digits + 2))) (digits + 2)) := by
  let run := hex.takeWhile isHexDigit
  have htake : ('0' :: 'x' :: hex).take (digits + 2 + 1) = '0' :: 'x' :: run := by
    have := take_length_takeWhile isHexDigit hex
    rw [hdigits] at this
    exact congrArg ('0' :: 'x' :: ·) this
  have hlength : ('0' :: 'x' :: run).length = digits + 3 := by simp [run, hdigits]
  have hmem : '0' :: 'x' :: run ∈ TokenPattern.hexLiteral.language :=
    TokenPattern.mem_hexLiteral.2 ⟨run, rfl, List.length_pos_iff.1 (by simp [run, hdigits]),
      List.all_eq_true.1 List.all_takeWhile⟩
  rw [textOf_eq htake]
  refine correct_token .hexLiteral htake hmem ?_ nofun
  intro other v hfamily h
  cases other with
  | hexLiteral =>
    obtain ⟨hex', -, hcs, -, hle⟩ := hex_cases h
    cases hcs
    omega
  | intLiteral =>
    have hle := length_le_of_int h
    simp at hle
    omega
  | _ => cases hfamily

theorem scanNumber_correct {c : Char} (hc : c.isDigit = true) (cs : List Char) :
    Correct (c :: cs) (scanNumber c cs) := by
  unfold scanNumber
  dsimp only
  split
  · next hex =>
    split
    · next hzero =>
      -- A mark without digits: the zero in front of it is a literal of its own.
      refine decimal_correct hc fun v h => ?_
      obtain ⟨hex', -, hcs, hpos, -⟩ := hex_cases h
      cases hcs
      omega
    · next digits hdigits => exact hex_correct hdigits
  · next hother =>
    refine decimal_correct hc fun v h => ?_
    obtain ⟨hex, hc', hcs, -, -⟩ := hex_cases h
    exact hother hex hc' hcs

theorem char_cases {cs v : List Char} {pattern : TokenPattern}
    (h : Matches ('\'' :: cs) pattern v) : pattern = .charLiteral ∧
      ((∃ c rest, isCharBody c = true ∧ cs = c :: '\'' :: rest ∧ v = ['\'', c, '\'']) ∨
        ∃ e rest, isEscape e = true ∧ cs = '\\' :: e :: '\'' :: rest ∧
          v = ['\'', '\\', e, '\'']) := by
  have hfamily : pattern.family = .char := h.family
  have hprefix := h.isPrefix
  cases pattern with
  | charLiteral =>
    refine ⟨rfl, ?_⟩
    obtain ⟨c, hc, rfl⟩ | ⟨e, he, rfl⟩ := TokenPattern.mem_charLiteral.1 h.mem
    · obtain ⟨rest, hcs⟩ := hprefix
      exact .inl ⟨c, rest, hc, by simpa using hcs.symm, rfl⟩
    · obtain ⟨rest, hcs⟩ := hprefix
      exact .inr ⟨e, rest, he, by simpa using hcs.symm, rfl⟩
  | _ => cases hfamily

theorem scanChar_correct (cs : List Char) : Correct ('\'' :: cs) (scanChar cs) := by
  have hinvalid : (∀ pattern v, ¬ Matches ('\'' :: cs) pattern v) →
      Correct ('\'' :: cs) (.invalid 0) := fun h => ⟨h, .char (by decide)⟩
  unfold scanChar
  split
  · next e rest =>
    split
    · next he =>
      have hmem : ['\'', '\\', e, '\''] ∈ TokenPattern.charLiteral.language :=
        TokenPattern.mem_charLiteral.2 (.inr ⟨e, he, rfl⟩)
      refine correct_token .charLiteral rfl hmem ?_ nofun
      intro other v _ h
      obtain ⟨-, ⟨c, rest', hc, hcs, rfl⟩ | ⟨e', rest', -, -, rfl⟩⟩ := char_cases h
      · simp
      · simp
    · next he =>
      refine hinvalid fun pattern v h => ?_
      obtain ⟨-, ⟨c, rest', hc, hcs, -⟩ | ⟨e', rest', he', hcs, -⟩⟩ := char_cases h
      · cases hcs
        cases hc
      · cases hcs
        exact he he'
  · next c rest hother =>
    split
    · next hc =>
      have hmem : ['\'', c, '\''] ∈ TokenPattern.charLiteral.language :=
        TokenPattern.mem_charLiteral.2 (.inl ⟨c, hc, rfl⟩)
      refine correct_token .charLiteral rfl hmem ?_ nofun
      intro other v _ h
      obtain ⟨-, ⟨c', rest', -, -, rfl⟩ | ⟨e', rest', -, hcs, rfl⟩⟩ := char_cases h
      · simp
      · cases hcs
        cases hc
    · next hc =>
      refine hinvalid fun pattern v h => ?_
      obtain ⟨-, ⟨c', rest', hc', hcs, -⟩ | ⟨e', rest', he', hcs, -⟩⟩ := char_cases h
      · cases hcs
        exact hc hc'
      · simp only [List.cons.injEq] at hcs
        exact hother rest' hcs.1 hcs.2.2
  · next hescape hbody =>
    refine hinvalid fun pattern v h => ?_
    obtain ⟨-, ⟨c, rest, -, hcs, -⟩ | ⟨e, rest, -, hcs, -⟩⟩ := char_cases h
    · exact hbody c rest hcs
    · exact hescape e rest hcs

theorem string_cases {cs v : List Char} {pattern : TokenPattern}
    (h : Matches ('"' :: cs) pattern v) : pattern = .stringLiteral ∧
      ∃ rest, cs.drop (stringBodyLength cs) = '"' :: rest ∧ v.length = stringBodyLength cs + 2 := by
  have hfamily : pattern.family = .string := h.family
  obtain ⟨rest, hcs⟩ := h.isPrefix
  cases pattern with
  | stringLiteral =>
    refine ⟨rfl, ?_⟩
    obtain ⟨body, hbody, rfl⟩ := TokenPattern.mem_stringLiteral.1 h.mem
    obtain rfl : body ++ '"' :: rest = cs := by simpa using hcs
    have hlength : stringBodyLength (body ++ '"' :: rest) = body.length := by
      rw [stringBodyLength_append hbody]
      rfl
    rw [hlength, List.drop_left]
    exact ⟨rest, rfl, by simp⟩
  | _ => cases hfamily

theorem scanString_correct (cs : List Char) : Correct ('"' :: cs) (scanString cs) := by
  unfold scanString
  dsimp only
  split
  · next rest hrest =>
    let body := cs.take (stringBodyLength cs)
    have hlt : stringBodyLength cs < cs.length := by
      have := congrArg List.length hrest
      rw [List.length_drop, List.length_cons] at this
      omega
    have hlength : body.length = stringBodyLength cs := List.length_take_of_le (Nat.le_of_lt hlt)
    have hcs : body ++ '"' :: rest = cs := by
      rw [← hrest]
      exact List.take_append_drop _ cs
    have htake : ('"' :: cs).take (stringBodyLength cs + 1 + 1) = '"' :: (body ++ ['"']) := by
      rw [List.take_succ_cons, ← hlength]
      conv_lhs => rw [← hcs]
      rw [List.take_length_add_append]
      rfl
    have hmem : '"' :: (body ++ ['"']) ∈ TokenPattern.stringLiteral.language :=
      TokenPattern.mem_stringLiteral.2 ⟨body, take_stringBodyLength_mem cs, rfl⟩
    rw [textOf_eq htake]
    refine correct_token .stringLiteral htake hmem ?_ nofun
    intro other v _ h
    obtain ⟨-, -, -, hv⟩ := string_cases h
    simp [hv, hlength]
  · next hother =>
    refine ⟨fun pattern v h => ?_, .string (longest_stringBody cs)⟩
    obtain ⟨-, rest, hrest, -⟩ := string_cases h
    exact hother rest hrest

theorem punct_cases (mark : Punct) :
    (∃ c, mark.text.toList = [c] ∧ oneCharPunct? c = some mark) ∨
      ∃ c d, mark.text.toList = [c, d] ∧ twoCharPunct? c d = some mark := by
  cases mark <;> first | exact .inl ⟨_, rfl, rfl⟩ | exact .inr ⟨_, _, rfl, rfl⟩

theorem text_of_oneCharPunct? {c : Char} {mark : Punct} (h : oneCharPunct? c = some mark) :
    mark.text.toList = [c] := by
  unfold oneCharPunct? at h
  split at h <;> cases h <;> rfl

theorem text_of_twoCharPunct? {c d : Char} {mark : Punct}
    (h : twoCharPunct? c d = some mark) : mark.text.toList = [c, d] := by
  unfold twoCharPunct? at h
  split at h <;> cases h <;> rfl

theorem mark_cases {c : Char} {cs v : List Char} {pattern : TokenPattern}
    (hc : Family.ofChar c = .mark) (h : Matches (c :: cs) pattern v) :
    ∃ mark, pattern = .punct mark ∧ v = mark.text.toList ∧
      ((v = [c] ∧ oneCharPunct? c = some mark) ∨
        ∃ d rest, cs = d :: rest ∧ v = [c, d] ∧ twoCharPunct? c d = some mark) := by
  have hfamily : pattern.family = .mark := h.family.trans hc
  have hprefix := h.isPrefix
  cases pattern with
  | punct mark =>
    obtain rfl : v = mark.text.toList := h.mem
    refine ⟨mark, rfl, rfl, ?_⟩
    obtain ⟨d, hd, hmark⟩ | ⟨d, e, hd, hmark⟩ := punct_cases mark
    · rw [hd] at hprefix
      obtain ⟨rfl, -⟩ := List.cons_prefix_cons.1 hprefix
      exact .inl ⟨hd, hmark⟩
    · rw [hd] at hprefix
      obtain ⟨rest, hcs⟩ := hprefix
      simp only [List.cons_append, List.nil_append, List.cons.injEq] at hcs
      obtain ⟨rfl, rfl⟩ := hcs
      exact .inr ⟨e, rest, rfl, hd, hmark⟩
  | _ => cases hfamily

theorem scanPunct_correct {c : Char} (hc : Family.ofChar c = .mark) (cs : List Char) :
    Correct (c :: cs) (scanPunct c cs) := by
  unfold scanPunct
  split
  · next mark hmark =>
    obtain ⟨d, hd, hmark⟩ := Option.bind_eq_some_iff.1 hmark
    cases cs with
    | nil => cases hd
    | cons e rest =>
      cases hd
      have htext := text_of_twoCharPunct? hmark
      refine correct_token (.punct mark) rfl htext.symm ?_ nofun
      intro other v _ h
      obtain ⟨mark', -, -, ⟨rfl, -⟩ | ⟨d', rest', -, rfl, -⟩⟩ := mark_cases hc h
      · simp
      · simp
  · next hnone =>
    have hshort : ∀ pattern v, Matches (c :: cs) pattern v →
        ∃ mark, pattern = .punct mark ∧ v = [c] ∧ oneCharPunct? c = some mark := by
      intro pattern v h
      obtain ⟨mark, hpattern, -, ⟨hv, hmark⟩ | ⟨d, rest, rfl, -, hmark⟩⟩ := mark_cases hc h
      · exact ⟨mark, hpattern, hv, hmark⟩
      · rw [List.head?_cons, Option.bind_some, hmark] at hnone
        cases hnone
    split
    · next mark hmark =>
      have htext := text_of_oneCharPunct? hmark
      refine correct_token (.punct mark) rfl htext.symm ?_ nofun
      intro other v _ h
      obtain ⟨mark', -, rfl, -⟩ := hshort other v h
      simp
    · next hmark =>
      have hquote : c ≠ '"' := by
        rintro rfl
        cases hc
      refine ⟨fun pattern v h => ?_, .char hquote⟩
      obtain ⟨mark', -, -, hmark'⟩ := hshort pattern v h
      rw [hmark] at hmark'
      cases hmark'

theorem scan_correct (c : Char) (cs : List Char) : Correct (c :: cs) (scan c cs) := by
  unfold scan
  split
  · next hc => exact scanWord_correct hc cs
  split
  · next hc => exact scanNumber_correct hc cs
  split
  · next hc => exact hc ▸ scanChar_correct cs
  split
  · next hc => exact hc ▸ scanString_correct cs
  · next hword hnumber hchar hstring =>
    exact scanPunct_correct (by simp [Family.ofChar, hword, hnumber, hchar, hstring]) cs

end Decaf.Lexical
