import Decaf.Proofs.RuleScripts

namespace Decaf

namespace TokenStream

variable {s t : TokenStream} {token : Token}

theorem size_le_of_pass (h : s.pass = .ok token t) : t.size ≤ s.size := by
  obtain ⟨current, rest, textEnd⟩ := s
  cases rest with
  | nil =>
    cases h
    exact Nat.zero_le _
  | cons lexeme rest =>
    cases lexeme with
    | error e => cases h
    | ok next =>
      cases h
      simp only [size, List.length_cons]
      split <;> omega

theorem step_of_pass (live : s.kind ≠ .eof) (h : s.pass = .ok token t) : Step s token t := by
  obtain ⟨current, rest, textEnd⟩ := s
  cases rest with
  | nil =>
    cases h
    exact .last live
  | cons lexeme rest =>
    cases lexeme with
    | error e => cases h
    | ok next =>
      cases h
      exact .token live

end TokenStream

namespace Descent

open TokenStream

/-- A step of a script that moves on or hands over. -/
inductive Action : Type 1
  | take
  | follow {β : Type} (rule : Rule β)

/-- A run of the script from the first stream takes the action at the second one. What the rules do
that it follows is not counted, but they have to come out with a value for it to go on. -/
inductive Does {α : Type} : Script α → TokenStream → Action → TokenStream → Prop
  | take {next : Token → Script α} {s : TokenStream} : Does (.taking next) s .take s
  | follow {β : Type} {rule : Rule β} {next : β → Script α} {s : TokenStream} :
      Does (.following rule next) s (.follow rule) s
  | looking {next : Token → Script α} {s t : TokenStream} {a : Action} :
      Does (next s.current) s a t → Does (.looking next) s a t
  | taking {next : Token → Script α} {s t u : TokenStream} {token : Token} {a : Action} :
      s.pass = .ok token u → Does (next token) u a t → Does (.taking next) s a t
  | following {β : Type} {rule : Rule β} {next : β → Script α} {s t u : TokenStream} {value : β}
      {a : Action} : Runs rule.script s (.ok value u) → Does (next value) u a t →
      Does (.following rule next) s a t

section Runs

variable {α β : Type} {s t u : TokenStream} {a : Action}

theorem Does.of_bind {p : Script α} {f : α → Script β} (h : Does (p >>= f) s a t) :
    Does p s a t ∨ ∃ value u, Runs p s (.ok value u) ∧ Does (f value) u a t := by
  change Does (p.bind f) s a t at h
  induction p generalizing s with
  | done value => exact .inr ⟨value, s, .done, h⟩
  | fail fault span => cases h
  | looking next ih =>
    cases h with
    | looking h =>
      rcases ih _ h with h | ⟨value, u, hrun, h⟩
      · exact .inl (.looking h)
      · exact .inr ⟨value, u, .looking hrun, h⟩
  | taking next ih =>
    cases h with
    | take => exact .inl .take
    | taking hpass h =>
      rcases ih _ h with h | ⟨value, u, hrun, h⟩
      · exact .inl (.taking hpass h)
      · exact .inr ⟨value, u, .taking hpass hrun, h⟩
  | following rule next ih =>
    cases h with
    | follow => exact .inl .follow
    | following hrule h =>
      rcases ih _ h with h | ⟨value, u, hrun, h⟩
      · exact .inl (.following hrule h)
      · exact .inr ⟨value, u, .following hrule hrun, h⟩

theorem Runs.size_le {p : Script α} {ending : Ending α} (h : Runs p s ending) :
    ∀ value t, ending = .ok value t → t.size ≤ s.size := by
  induction h with
  | done =>
    rintro _ _ ⟨⟩
    exact Nat.le_refl _
  | fail | unreadable _ | failing _ _ => rintro _ _ ⟨⟩
  | looking _ ih => exact ih
  | taking hpass _ ih => exact fun value t h => Nat.le_trans (ih value t h) (size_le_of_pass hpass)
  | following _ _ ihrule ih => exact fun value t h => Nat.le_trans (ih value t h) (ihrule _ _ rfl)

theorem Does.size_le {p : Script α} (h : Does p s a t) : t.size ≤ s.size := by
  induction h with
  | take | follow => exact Nat.le_refl _
  | looking _ ih => exact ih
  | taking hpass _ ih => exact Nat.le_trans ih (size_le_of_pass hpass)
  | following hrule _ ih => exact Nat.le_trans ih (hrule.size_le _ _ rfl)

end Runs

namespace Script

variable {α β : Type}

/-- The script never moves past the end of the text. It is a class so that it is found along the
script. -/
class Cautious (p : Script α) : Prop where
  live {s t : TokenStream} : Does p s .take t → t.kind ≠ .eof

section Cautious

instance cautious_pure (value : α) : Cautious (pure value : Script α) where
  live := by rintro s t ⟨⟩

instance cautious_fail (fault : GrammarFault) (span : Span) :
    Cautious (fail fault span : Script α) where
  live := by rintro s t ⟨⟩

instance cautious_kind : Cautious kind where
  live := by rintro s t (_ | _ | ⟨⟨⟩⟩)

instance cautious_span : Cautious span where
  live := by rintro s t (_ | _ | ⟨⟨⟩⟩)

instance cautious_follow (rule : Rule α) : Cautious (follow rule) where
  live := by rintro s t (_ | _ | _ | _ | ⟨-, ⟨⟩⟩)

instance cautious_bind (p : Script α) (f : α → Script β) [Cautious p]
    [∀ value, Cautious (f value)] : Cautious (p >>= f) where
  live h := by
    rcases h.of_bind with h | ⟨value, u, -, h⟩
    · exact Cautious.live h
    · exact Cautious.live h

instance cautious_ite (c : Prop) [Decidable c] (p q : Script α) [Cautious p] [Cautious q] :
    Cautious (if c then p else q) := by
  split <;> infer_instance

instance cautious_reject (wanted : Expectation) : Cautious (reject wanted : Script α) := by
  unfold reject
  infer_instance

theorem does_pick {choose : TokenKind → Option α} {wanted : Expectation} {s t : TokenStream}
    {a : Action} (h : Does (pick choose wanted) s a t) :
    a = .take ∧ t = s ∧ choose s.kind ≠ none := by
  rcases h.of_bind with hlook | ⟨found, u, hkind, hrest⟩
  · rcases hlook with _ | _ | ⟨⟨⟩⟩
  · obtain ⟨rfl, rfl⟩ : found = s.kind ∧ u = s := by
      cases hkind.eq_eval
      exact ⟨rfl, rfl⟩
    split at hrest
    · next value hchosen =>
      rcases hrest with _ | _ | _ | ⟨_, ⟨⟩⟩
      exact ⟨rfl, rfl, by simp [hchosen]⟩
    · cases hrest with
      | looking hspan =>
        cases hspan with
        | looking hfail => cases hfail

theorem cautious_pick {choose : TokenKind → Option α} (h : choose .eof = none)
    (wanted : Expectation) : Cautious (pick choose wanted) where
  live := by
    intro s t hdoes hend
    obtain ⟨-, rfl, hchosen⟩ := does_pick hdoes
    rw [hend] at hchosen
    exact hchosen h

instance cautious_integer (wanted : Expectation) : Cautious (pick TokenKind.integer? wanted) :=
  cautious_pick rfl wanted

instance cautious_char (wanted : Expectation) : Cautious (pick TokenKind.char? wanted) :=
  cautious_pick rfl wanted

instance cautious_string (wanted : Expectation) : Cautious (pick TokenKind.string? wanted) :=
  cautious_pick rfl wanted

theorem cautious_expect {wanted : TokenKind} (h : wanted ≠ .eof) : Cautious (expect wanted) := by
  have hpick : Cautious
      (pick (fun kind => if kind = wanted then some () else none) (.token wanted)) :=
    cautious_pick (if_neg h.symm) _
  unfold expect
  infer_instance

instance cautious_keyword (word : Keyword) : Cautious (keyword word) := cautious_expect nofun

instance cautious_punct (mark : Punct) : Cautious (punct mark) := cautious_expect nofun

instance cautious_identifier : Cautious identifier := by
  have hpick : Cautious (pick TokenKind.identifier? .identifier) := cautious_pick rfl _
  unfold identifier
  infer_instance

instance cautious_typeName : Cautious typeName := by
  have hpick : Cautious (pick ScalarType.ofKind? .typeName) := cautious_pick rfl _
  unfold typeName
  infer_instance

instance cautious_arraySize : Cautious arraySize := by
  unfold arraySize
  infer_instance

instance cautious_calloutName : Cautious calloutName := by
  unfold calloutName
  infer_instance

instance cautious_assignOp : Cautious assignOp := by
  have hpick : Cautious (pick AssignOp.ofKind? .assignmentOperator) := cautious_pick rfl _
  unfold assignOp
  infer_instance

instance cautious_eachBehindComma (item : Script α) [Cautious item] (others : Rule (List α)) :
    Cautious (eachBehindComma item others) := by
  unfold eachBehindComma
  infer_instance

instance cautious_fieldMember (afterMethod : Bool) (start : Span) (type : Option ScalarType)
    (name : Name) : Cautious (fieldMember afterMethod start type name) := by
  unfold fieldMember
  split <;> infer_instance

theorem Cautious.kind_bind {f : TokenKind → Script α} (h : ∀ found, Cautious (f found)) :
    Cautious (kind >>= f) := cautious_bind _ _

end Cautious

end Script

open Script in
theorem Rule.cautious_script {α : Type} (rule : Rule α) : Cautious rule.script := by
  cases rule with
  | binary level =>
    cases level <;>
    · unfold script
      infer_instance
  | operators below left | unary | primary | calloutArgument | statement =>
    -- Here the first token decides what follows.
    refine Cautious.kind_bind fun found => ?_
    split <;> infer_instance
  | _ =>
    unfold script
    infer_instance

section Reading

variable {α : Type} {s : TokenStream}

theorem Runs.reads {p : Script α} {ending : Ending α} (h : Runs p s ending)
    (live : ∀ t, Does p s .take t → t.kind ≠ .eof) :
    ∀ value t, ending = .ok value t → ∃ ts, Reads s ts t := by
  induction h with
  | done =>
    rintro _ _ ⟨⟩
    exact ⟨[], .nil _⟩
  | fail | unreadable _ | failing _ _ => rintro _ _ ⟨⟩
  | looking _ ih => exact ih fun t h => live t (.looking h)
  | taking hpass _ ih =>
    intro value t h
    obtain ⟨ts, hts⟩ := ih (fun t h => live t (.taking hpass h)) value t h
    exact ⟨_ :: ts, .cons (step_of_pass (live _ .take) hpass) hts⟩
  | @following _ _ rule next s u value ending hrule _ ihrule ih =>
    intro result t h
    obtain ⟨ts, hts⟩ := ihrule (fun _ h => rule.cautious_script.live h) _ _ rfl
    obtain ⟨us, hus⟩ := ih (fun t h => live t (.following hrule h)) result t h
    exact ⟨ts ++ us, hts.append hus⟩

theorem Rule.size_lt_of_answer {rule : Rule α} (hreads : rule.reads = true) {value : α}
    {t : TokenStream} (h : rule.answer s = .ok value t) : t.size < s.size := by
  cases rule <;> first | exact (Reply.gives_of_ending h).shorter | cases hreads

theorem Rule.reads_of_runs {rule : Rule α} (hreads : rule.reads = true) {value : α}
    {t : TokenStream} (h : Runs rule.script s (.ok value t)) :
    ∃ ts, ts ≠ [] ∧ Reads s ts t := by
  obtain ⟨ts, hts⟩ := h.reads (fun _ h => rule.cautious_script.live h) value t rfl
  refine ⟨ts, ?_, hts⟩
  rintro rfl
  have hsize : t.size < s.size := rule.size_lt_of_answer hreads h.eq_answer.symm
  rw [reads_nil.1 hts] at hsize
  exact Nat.lt_irrefl _ hsize

end Reading

/-- Where a rule stands among those that are followed without anything being read in between. -/
def Rule.level : {α : Type} → Rule α → Nat
  | _, .primary | _, .varDecls | _, .statement | _, .fieldRest _ _ _ | _, .params
  | _, .members _ => 1
  | _, .unary | _, .statements => 2
  | _, .binary level => level + 3
  | _, .expression => BinaryOp.loosest + 4
  | _, .arguments | _, .calloutArgument | _, .returnValue => BinaryOp.loosest + 5
  | _, _ => 0

namespace Script

variable {α β : Type} {level : Nat} {s : TokenStream}

/-- From this stream the script follows other rules only with less to read, or right here and
further down in the grammar. -/
def Falls (level : Nat) (s : TokenStream) (p : Script α) : Prop :=
  ∀ (β : Type) (rule : Rule β) (t : TokenStream), Does p s (.follow rule) t →
    t.size < s.size ∨ t = s ∧ rule.level < level

section Falls

@[simp]
theorem falls_pure (value : α) : Falls level s (pure value : Script α) := by
  rintro _ rule t ⟨⟩

@[simp]
theorem falls_reject (wanted : Expectation) : Falls level s (reject wanted : Script α) := by
  rintro _ rule t (_ | _ | ⟨_ | _ | ⟨⟨⟩⟩⟩)

theorem falls_bind {p : Script α} {f : α → Script β} (hp : Falls level s p)
    (hf : ∀ value t, Runs p s (.ok value t) →
      t.size < s.size ∨ t = s ∧ Falls level s (f value)) :
    Falls level s (p >>= f) := by
  intro γ rule t hdoes
  rcases hdoes.of_bind with hdoes | ⟨value, u, hrun, hrest⟩
  · exact hp γ rule t hdoes
  · rcases hf value u hrun with hsize | ⟨rfl, hfalls⟩
    · exact .inl (Nat.lt_of_le_of_lt hrest.size_le hsize)
    · exact hfalls γ rule t hrest

@[simp]
theorem falls_kind_bind {f : TokenKind → Script α} :
    Falls level s (kind >>= f) ↔ Falls level s (f s.kind) :=
  ⟨fun h β rule t hdoes => h β rule t (.looking hdoes),
    fun h β rule t hdoes => by cases hdoes with | looking hdoes => exact h β rule t hdoes⟩

@[simp]
theorem falls_span_bind {f : Span → Script α} :
    Falls level s (span >>= f) ↔ Falls level s (f s.span) :=
  ⟨fun h β rule t hdoes => h β rule t (.looking hdoes),
    fun h β rule t hdoes => by cases hdoes with | looking hdoes => exact h β rule t hdoes⟩

theorem falls_follow {rule : Rule α} (h : rule.level < level) : Falls level s (follow rule) := by
  rintro _ called t (_ | _ | _ | _ | ⟨-, ⟨⟩⟩)
  exact .inr ⟨rfl, h⟩

theorem runs_follow {rule : Rule α} {value : α} {t : TokenStream}
    (h : Runs (follow rule) s (.ok value t)) : rule.answer s = .ok value t := by
  rw [← eval_follow, ← h.eq_eval]

theorem falls_follow_bind {rule : Rule α} {f : α → Script β} (h : rule.level < level)
    (hreads : rule.reads = true) : Falls level s (follow rule >>= f) :=
  falls_bind (falls_follow h) fun _ _ hrun =>
    .inl (rule.size_lt_of_answer hreads (runs_follow hrun))

theorem falls_pick (choose : TokenKind → Option α) (wanted : Expectation) :
    Falls level s (pick choose wanted) := by
  intro β rule t h
  obtain ⟨htake, -⟩ := does_pick h
  cases htake

theorem falls_map {p : Script α} (h : Falls level s p) (g : α → β) :
    Falls level s (p >>= fun value => pure (g value)) := by
  intro γ rule t hdoes
  rcases hdoes.of_bind with hdoes | ⟨_, _, -, ⟨⟩⟩
  exact h γ rule t hdoes

theorem falls_token_bind {p : Script α} {f : α → Script β} {r : Reply α s.size}
    (hp : Falls level s p) (hr : p.eval s = r.ending) : Falls level s (p >>= f) := by
  refine falls_bind hp fun value t hrun => .inl ?_
  have hending : r.ending = .ok value t := by rw [← hr, hrun.eq_eval]
  exact (Reply.gives_of_ending hending).shorter

theorem falls_pick_bind {choose : TokenKind → Option α} {wanted : Expectation}
    {f : α × Span → Script β} (h : choose .eof = none) :
    Falls level s (pick choose wanted >>= f) :=
  falls_token_bind (falls_pick choose wanted) (eval_pick s h wanted)

@[simp]
theorem falls_keyword_bind {word : Keyword} {f : Span → Script α} :
    Falls level s (keyword word >>= f) :=
  falls_token_bind (falls_map (falls_pick _ _) _) (eval_keyword s word)

@[simp]
theorem falls_punct_bind {mark : Punct} {f : Span → Script α} :
    Falls level s (punct mark >>= f) :=
  falls_token_bind (falls_map (falls_pick _ _) _) (eval_punct s mark)

@[simp]
theorem falls_identifier_bind {f : Name → Script α} : Falls level s (identifier >>= f) :=
  falls_token_bind (falls_map (falls_pick _ _) _) (eval_identifier s)

@[simp]
theorem falls_typeName_bind {f : ScalarType → Script α} : Falls level s (typeName >>= f) :=
  falls_token_bind (falls_map (falls_pick _ _) _) (eval_typeName s)

@[simp]
theorem falls_ite (c : Prop) [Decidable c] (p q : Script α) :
    Falls level s (if c then p else q) ↔ (c → Falls level s p) ∧ (¬ c → Falls level s q) := by
  split <;> simp [*]

@[simp]
theorem falls_eachBehindComma (item : Script α) (others : Rule (List α)) :
    Falls level s (eachBehindComma item others) := by
  simp [eachBehindComma]

end Falls

end Script

/-- What is optional is read, or nothing is. -/
theorem ending_optional {α : Type} {c : Prop} [Decidable c] {s t : TokenStream}
    {r : Reply α s.size} {value other : α}
    (h : (if c then r.lax else .done other s).ending = .ok value t) : t.size < s.size ∨ t = s := by
  split at h
  · rw [Reply.ending_lax] at h
    exact .inl (Reply.gives_of_ending h).shorter
  · cases h
    exact .inr rfl

open Script in
theorem Rule.falls_script {α : Type} (rule : Rule α) (s : TokenStream) :
    Falls rule.level s rule.script := by
  cases rule with
  | expression => exact falls_follow (Nat.lt_succ_self _)
  | binary level =>
    cases level with
    | zero => exact falls_follow (Nat.lt_succ_self _)
    | succ below => exact falls_follow_bind (Nat.lt_succ_self _) rfl
  | operators below left =>
    refine falls_kind_bind.2 ?_
    split <;> simp
  | unary =>
    refine falls_kind_bind.2 ?_
    split
    · exact falls_follow (Nat.lt_succ_self _)
    · exact falls_punct_bind
  | primary =>
    refine falls_kind_bind.2 ?_
    split
    all_goals first
      | exact falls_pick_bind rfl
      | exact falls_follow_bind (Nat.lt_succ_self _) rfl
      | simp
  | calloutArgument =>
    refine falls_kind_bind.2 ?_
    split
    · exact falls_pick_bind rfl
    · exact falls_follow_bind (Nat.lt_succ_self _) rfl
  | statement =>
    refine falls_kind_bind.2 ?_
    split
    all_goals first
      | exact falls_follow (Nat.lt_succ_self _)
      | exact falls_follow_bind (Nat.lt_succ_self _) rfl
      | exact falls_span_bind.2 (falls_follow_bind (Nat.lt_succ_self _) rfl)
      | simp
  | fieldRest start type name =>
    -- Without a size and further names it is the semicolon that is read.
    refine falls_bind (falls_follow (Nat.lt_succ_self _)) fun field t hfield => ?_
    rcases ending_optional (runs_follow hfield) with hsize | rfl
    · exact .inl hsize
    refine .inr ⟨rfl, falls_bind (falls_follow (Nat.lt_succ_self _)) fun others u hothers => ?_⟩
    have hanswer := runs_follow hothers
    rw [answer, Parser.moreFieldNames] at hanswer
    rcases ending_optional hanswer with hsize | rfl
    · exact .inl hsize
    · exact .inr ⟨rfl, falls_punct_bind⟩
  | arguments | returnValue | statements | params =>
    refine falls_kind_bind.2 ((falls_ite _ _ _).2 ⟨fun _ => falls_pure _, fun _ => ?_⟩)
    exact falls_follow_bind (Nat.lt_succ_self _) rfl
  | varDecls =>
    refine falls_kind_bind.2 ((falls_ite _ _ _).2 ⟨fun _ => ?_, fun _ => falls_pure _⟩)
    exact falls_follow_bind (Nat.lt_succ_self _) rfl
  | members afterMethod =>
    refine falls_kind_bind.2 ((falls_ite _ _ _).2 ⟨fun _ => falls_pure _, fun _ => ?_⟩)
    exact falls_span_bind.2 (falls_follow_bind (Nat.lt_succ_self _) rfl)
  | _ => simp [script]

structure Invocation : Type 1 where
  {α : Type}
  rule : Rule α
  stream : TokenStream

namespace Invocation

/-- The run of one rule follows the other one. -/
def Makes (outer inner : Invocation) : Prop :=
  Does outer.rule.script outer.stream (.follow inner.rule) inner.stream

/-- What is left to read counts first, the level of the rule second. -/
def weight (i : Invocation) : Nat × Nat := (i.stream.size, i.rule.level)

theorem makes_wellFounded : WellFounded fun inner outer : Invocation => outer.Makes inner := by
  refine Subrelation.wf ?_ (InvImage.wf weight (Prod.lex Nat.lt_wfRel Nat.lt_wfRel).wf)
  rintro ⟨called, t⟩ ⟨rule, s⟩ hmakes
  rcases rule.falls_script s _ called t hmakes with hsize | ⟨rfl, hlevel⟩
  · exact .left _ _ hsize
  · exact .right _ hlevel

end Invocation

theorem Script.exists_runs {α : Type} (p : Script α) (s : TokenStream)
    (h : ∀ (β : Type) (rule : Rule β) (t : TokenStream), Does p s (.follow rule) t →
      ∃ ending, Runs rule.script t ending) : ∃ ending, Runs p s ending := by
  induction p generalizing s with
  | done value => exact ⟨_, .done⟩
  | fail fault span => exact ⟨_, .fail⟩
  | looking next ih =>
    obtain ⟨ending, hrun⟩ := ih s.current s fun β rule t hdoes => h β rule t (.looking hdoes)
    exact ⟨ending, .looking hrun⟩
  | taking next ih =>
    cases hpass : s.pass with
    | fail error t => exact ⟨_, .unreadable hpass⟩
    | ok token u =>
      obtain ⟨ending, hrun⟩ :=
        ih token u fun β rule t hdoes => h β rule t (.taking hpass hdoes)
      exact ⟨ending, .taking hpass hrun⟩
  | following rule next ih =>
    obtain ⟨ending, hrule⟩ := h _ rule s .follow
    cases ending with
    | fail error t => exact ⟨_, .failing hrule⟩
    | ok value u =>
      obtain ⟨ending, hrun⟩ :=
        ih value u fun β called t hdoes => h β called t (.following hrule hdoes)
      exact ⟨ending, .following hrule hrun⟩

theorem Invocation.exists_runs (i : Invocation) :
    ∃ ending, Runs i.rule.script i.stream ending := by
  induction i using makes_wellFounded.induction with
  | _ i ih => exact i.rule.script.exists_runs i.stream fun β called t h => ih ⟨called, t⟩ h

/-- What makes the recursion of the grammar end, at one rule and one stream. -/
structure Rule.Descends {α : Type} (rule : Rule α) (s : TokenStream) : Prop where
  /-- The parser does what the script says, with its own answers for the rules that are followed. -/
  steps : rule.script.eval s = rule.answer s
  /-- There is exactly one run, and it comes to the answer of the rule. -/
  ends : ∀ ending, Runs rule.script s ending ↔ ending = rule.answer s
  /-- Rules that have to read something read a token that is not the end of the text. -/
  reads : rule.reads = true → ∀ value t, rule.answer s = .ok value t →
    ∃ ts, ts ≠ [] ∧ Reads s ts t
  /-- At the end of the text no token is taken. -/
  live : ∀ t, Does rule.script s .take t → t.kind ≠ .eof
  /-- Rules are followed with less to read, or right at the start and further down. -/
  falls : ∀ (β : Type) (called : Rule β) (t : TokenStream),
    Does rule.script s (.follow called) t → t.size < s.size ∨ t = s ∧ called.level < rule.level

theorem Rule.runs_script_iff {α : Type} {rule : Rule α} {s : TokenStream} {ending : Ending α} :
    Runs rule.script s ending ↔ ending = rule.answer s := by
  constructor
  · exact Runs.eq_answer
  · rintro rfl
    obtain ⟨ending, hrun⟩ := Invocation.exists_runs ⟨rule, s⟩
    rwa [← hrun.eq_answer]

theorem Rule.descends {α : Type} (rule : Rule α) (s : TokenStream) : rule.Descends s where
  steps := rule.eval_script s
  ends _ := runs_script_iff
  reads hreads _ _ hanswer := rule.reads_of_runs hreads (runs_script_iff.2 hanswer.symm)
  live _ h := rule.cautious_script.live h
  falls := rule.falls_script s

theorem parse_eq_result (s : TokenStream) : s.parse.1 = (Rule.program.answer s).result := by
  change _ = (Parser.program s).ending.result
  rw [TokenStream.parse]
  cases Parser.program s <;> rfl

/-- Parsing ends on every input. The rules of the grammar, run step by step, never nest without
end: wherever a rule starts, the rules it follows, itself included, start with less to read or
further down in the grammar; it reads at least one token if it has to, and never goes past the end
of the text. So it runs to its answer, and a text is parsed to the answer for a program. -/
theorem parser_terminates :
    WellFounded (fun inner outer : Invocation => outer.Makes inner) ∧
    (∀ (α : Type) (rule : Rule α) (s : TokenStream), rule.Descends s) ∧
    ∀ text : String,
      (∃ e, ofText text = .error e ∧ parseProgram text = .error (.lexical e)) ∨
      ∃ s ending, ofText text = .ok s ∧ Runs Rule.program.script s ending ∧
        parseProgram text = ending.result := by
  refine ⟨Invocation.makes_wellFounded, fun _ rule s => rule.descends s, fun text => ?_⟩
  unfold parseProgram
  cases ofText text with
  | error e => exact .inl ⟨e, rfl, rfl⟩
  | ok s => exact .inr ⟨s, _, rfl, Rule.runs_script_iff.2 rfl, parse_eq_result s⟩

end Descent

end Decaf
