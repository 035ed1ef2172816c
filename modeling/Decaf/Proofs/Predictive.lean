import Decaf.Proofs.ParserSound

namespace Decaf

namespace TokenStream

variable {s s' next next' : TokenStream} {ts : List Token}

theorem Reads.size_le (h : Reads s ts next) : next.size ≤ s.size := by
  induction h with
  | nil => exact Nat.le_refl _
  | cons hstep _ ih => exact Nat.le_trans ih (Nat.le_of_lt hstep.shorter)

theorem Reads.current_eq (h : Reads s ts next) (h' : Reads s' ts next')
    (hnext : next'.current = next.current) : s'.current = s.current := by
  cases h with
  | nil => rw [← reads_nil.1 h', hnext]
  | cons hstep _ =>
    obtain ⟨s₁, hstep', -⟩ := reads_cons.1 h'
    rw [hstep.current, hstep'.current]

theorem Reads.head_current (h : Reads s ts next) {t : Token} (ht : t ∈ ts.head?) :
    s.current = t := by
  cases h with
  | nil => cases ht
  | cons hstep _ =>
    cases ht
    exact hstep.current

theorem pick_eq_reject {α : Type} {choose : TokenKind → Option α} {wanted : Expectation}
    (h : choose s.kind = none) : s.pick choose wanted = s.reject wanted := by
  unfold pick
  split
  · rw [h]
  · rfl

end TokenStream

namespace Reply

variable {α β γ : Type} {n : Nat} {v : α} {e : ParseError} {next last : TokenStream}

theorem lax_eq_fail {r : Reply α n} : r.lax = .fail e next ↔ r = .fail e next := by
  cases r <;> simp [lax]

theorem map_eq_fail {r : Reply α n} {f : α → β} : r.map f = .fail e next ↔ r = .fail e next := by
  cases r <;> simp [map]

theorem Gives.andThen_eq_fail {r : Reply α n} {f : α → (s : TokenStream) → Reply β (s.size + 1)}
    (h : r.Gives v next) (hf : f v next = .fail e last) :
    (r.andThen fun v s _ => f v s) = .fail e last := by
  obtain ⟨_, rfl⟩ := h
  simp only [andThen, hf]

theorem andThen_assoc {r : Reply α n} {f : α → (s : TokenStream) → Reply β (s.size + 1)}
    {g : β → (s : TokenStream) → Reply γ (s.size + 1)} :
    ((r.andThen fun v s _ => f v s).andThen fun w s _ => g w s) =
      r.andThen fun v s _ => (f v s).andThen fun w s _ => g w s := by
  cases r with
  | fail e s => rfl
  | ok v s h =>
    cases hf : f v s with
    | fail e t => simp only [andThen, hf]
    | ok w t ht =>
      cases hg : g w t with
      | fail e u => simp only [andThen, hf, hg]
      | ok x u hu => simp only [andThen, hf, hg]

theorem lax_andThen {r : Reply α n} {f : α → (s : TokenStream) → Reply β (s.size + 1)} :
    (r.andThen fun v s _ => f v s).lax = r.lax.andThen fun v s _ => f v s := by
  cases r with
  | fail e s => rfl
  | ok v s h =>
    cases hf : f v s with
    | fail e t => simp only [andThen, hf, lax]
    | ok w t ht => simp only [andThen, hf, lax]

theorem lax_andThenRead {r : Reply α (n + 1)} {f : α → (s : TokenStream) → Reply β s.size} :
    (r.andThenRead fun v s _ => f v s).lax = r.andThen fun v s _ => (f v s).lax := by
  cases r with
  | fail e s => rfl
  | ok v s h =>
    cases hf : f v s with
    | fail e t => simp only [andThenRead, andThen, hf, lax]
    | ok w t ht => simp only [andThenRead, andThen, hf, lax]

end Reply

namespace Parser

open TokenStream Grammar

/-- Faults that are found behind some tokens and reported in front of the last of them. -/
abbrev LateFaults := List Token → GrammarFault → Span → Prop

abbrev noFaults : LateFaults := fun _ _ _ => False

abbrev LateFaults.behind (late : LateFaults) (ts : List Token) : LateFaults :=
  fun front => late (ts ++ front)

/-- A fault found at the token `t` behind the tokens `front`. All but the late ones are reported at
this token. -/
inductive Reported (late : LateFaults) (front : List Token) (t : Token) :
    GrammarFault → Span → Prop
  | unexpected (wanted : Expectation) : Reported late front t (.unexpected wanted t.kind) t.span
  | late {fault : GrammarFault} {a : Span} : late front fault a → Reported late front t fault a

/-- Some tokens behind `front` complete it. -/
def Completable {α : Type} (R : List Token → α → Prop) (front : List Token) : Prop :=
  ∃ us v, R (front ++ us) v

theorem Reported.behind {late : LateFaults} {ts front : List Token} {t : Token}
    {fault : GrammarFault} {a : Span} (h : Reported (late.behind ts) front t fault a) :
    Reported late (ts ++ front) t fault a := by
  cases h with
  | unexpected wanted => exact .unexpected wanted
  | late hlate => exact .late hlate

theorem Completable.behind {α : Type} {R : List Token → α → Prop} {ts front : List Token}
    (h : Completable (fun us v => R (ts ++ us) v) front) : Completable R (ts ++ front) := by
  obtain ⟨us, v, hv⟩ := h
  exact ⟨us, v, by rwa [List.append_assoc]⟩

section Outcome

variable {α : Type} {bound : TokenStream → Nat}

/-- What a predictive rule does with a stream. It does the same with every stream that has the same
tokens up to the one where it stops. -/
inductive Outcome (late : LateFaults) (rule : (s : TokenStream) → Reply α (bound s))
    (R : List Token → α → Prop) (s : TokenStream) : Prop
  | gives {ts : List Token} {v : α} {next : TokenStream} : Reads s ts next → R ts v →
      (∀ s' next', Reads s' ts next' → next'.current = next.current → (rule s').Gives v next') →
      Outcome late rule R s
  | rejects {front : List Token} {fault : GrammarFault} {a : Span} {next : TokenStream} :
      Reads s front next → Reported late front next.current fault a → Completable R front →
      (∀ s' next', Reads s' front next' → next'.current = next.current →
        rule s' = .fail (.grammar fault a) next') →
      Outcome late rule R s
  | breaks {front : List Token} {t : Token} {x : LexicalError} {rest : List Lexeme}
      {textEnd : Span} : Reads s front ⟨t, .error x :: rest, textEnd⟩ → t.kind ≠ .eof →
      Completable R (front ++ [t]) → rule s = .fail (.lexical x) ⟨t, rest, textEnd⟩ →
      Outcome late rule R s

/-- The rule is predictive for `R` on streams of less than the given size, and there is something
that it can read. -/
structure Predictive (late : LateFaults) (size : Nat) (rule : (s : TokenStream) → Reply α (bound s))
    (R : List Token → α → Prop) : Prop where
  possible : Completable R []
  outcome : ∀ s, s.size < size → Outcome late rule R s

end Outcome

namespace Predictive

variable {α β : Type} {bound bound' : TokenStream → Nat} {late : LateFaults} {size : Nat}
  {rule : (s : TokenStream) → Reply α (bound s)} {R : List Token → α → Prop}
  {S : List Token → β → Prop}

theorem zero (h : Completable R []) : Predictive late 0 rule R :=
  ⟨h, fun _ hlt => absurd hlt (Nat.not_lt_zero _)⟩

theorem weaken {less : Nat} (h : Predictive late size rule R) (hle : less ≤ size) :
    Predictive late less rule R :=
  ⟨h.possible, fun s hlt => h.outcome s (Nat.lt_of_lt_of_le hlt hle)⟩

/-- A rule that succeeds and fails where another one does. -/
theorem transfer {rule' : (s : TokenStream) → Reply β (bound' s)} {f : α → β}
    (h : Predictive late size rule R)
    (hgives : ∀ s v next, (rule s).Gives v next → (rule' s).Gives (f v) next)
    (hfails : ∀ s e next, rule s = .fail e next → rule' s = .fail e next)
    (hR : ∀ ts v, R ts v → S ts (f v)) : Predictive late size rule' S := by
  have hcomplete : ∀ front, Completable R front → Completable S front := by
    rintro front ⟨us, v, hv⟩
    exact ⟨us, f v, hR _ _ hv⟩
  refine ⟨hcomplete [] h.possible, ?_⟩
  intro s hlt
  cases h.outcome s hlt with
  | gives hread hv htwin =>
    exact .gives hread (hR _ _ hv) fun s' next' h₁ h₂ => hgives _ _ _ (htwin s' next' h₁ h₂)
  | rejects hread hreported hfront htwin =>
    exact .rejects hread hreported (hcomplete _ hfront)
      fun s' next' h₁ h₂ => hfails _ _ _ (htwin s' next' h₁ h₂)
  | breaks hread hlive hfront heq =>
    exact .breaks hread hlive (hcomplete _ hfront) (hfails _ _ _ heq)

theorem of_eq {rule' : (s : TokenStream) → Reply α (bound s)} (heq : ∀ s, rule' s = rule s)
    (h : Predictive late size rule R) : Predictive late size rule' R :=
  (funext heq : rule' = rule) ▸ h

theorem mono {S : List Token → α → Prop} (h : Predictive late size rule R)
    (hR : ∀ ts v, R ts v → S ts v) : Predictive late size rule S :=
  h.transfer (fun _ _ _ h => h) (fun _ _ _ h => h) hR

theorem lax {n : TokenStream → Nat} {rule : (s : TokenStream) → Reply α (n s)}
    (h : Predictive late size rule R) : Predictive late size (fun s => (rule s).lax) R :=
  h.transfer (fun _ _ _ => Reply.lax_gives.2) (fun _ _ _ => Reply.lax_eq_fail.2) fun _ _ h => h

theorem of_lax (h : Predictive late size (fun s => (rule s).lax) R) :
    Predictive late size rule R :=
  h.transfer (fun _ _ _ => Reply.lax_gives.1) (fun _ _ _ => Reply.lax_eq_fail.1) fun _ _ h => h

theorem map {f : α → β} (h : Predictive late size rule R) (hR : ∀ ts v, R ts v → S ts (f v)) :
    Predictive late size (fun s => (rule s).map f) S :=
  h.transfer (fun _ v _ h => Reply.map_gives.2 ⟨v, h, rfl⟩)
    (fun _ _ _ => Reply.map_eq_fail.2) hR

theorem withFaults {late' : LateFaults} (h : Predictive late size rule R)
    (hlate : ∀ front fault a, late front fault a → late' front fault a) :
    Predictive late' size rule R := by
  refine ⟨h.possible, ?_⟩
  intro s hlt
  cases h.outcome s hlt with
  | gives hread hv htwin => exact .gives hread hv htwin
  | rejects hread hreported hfront htwin =>
    cases hreported with
    | unexpected wanted => exact .rejects hread (.unexpected wanted) hfront htwin
    | late hfault => exact .rejects hread (.late (hlate _ _ _ hfault)) hfront htwin
  | breaks hread hlive hfront heq => exact .breaks hread hlive hfront heq

theorem ofNoFaults (h : Predictive noFaults size rule R) : Predictive late size rule R :=
  h.withFaults nofun

theorem done {v : α} (h : R [] v) : Predictive late size (fun s => .done v s) R := by
  refine ⟨⟨[], v, h⟩, ?_⟩
  intro s _
  refine .gives (.nil s) h ?_
  intro s' next' hread _
  exact Reply.done_gives.2 ⟨rfl, reads_nil.1 hread⟩

theorem fault {fault : GrammarFault} {a : Span} (hlate : late [] fault a) (h : Completable R []) :
    Predictive late size (fun s => (.fail (.grammar fault a) s : Reply α (bound s))) R := by
  refine ⟨h, ?_⟩
  intro s _
  refine .rejects (.nil s) (.late hlate) h ?_
  intro s' next' hread _
  rw [reads_nil.1 hread]

theorem reject (wanted : Expectation) (h : Completable R []) :
    Predictive late size (fun s => (s.reject wanted : Reply α (bound s))) R := by
  refine ⟨h, ?_⟩
  intro s _
  refine .rejects (.nil s) (.unexpected wanted) h ?_
  intro s' next' hread hcurrent
  rw [reads_nil.1 hread] at hcurrent ⊢
  simp only [TokenStream.reject, TokenStream.kind, TokenStream.span, hcurrent]

theorem token {choose : TokenKind → Option α} {wanted : Expectation} {f : α × Span → β}
    (hend : choose .eof = none) (hsome : ∃ kind v, choose kind = some v)
    (hS : ∀ kind a v, choose kind = some v → S [⟨kind, a⟩] (f (v, a))) :
    Predictive late size (fun s => (s.pick choose wanted).map f) S := by
  have hpossible : Completable S [] := by
    obtain ⟨kind, v, hv⟩ := hsome
    exact ⟨[⟨kind, .zero⟩], f (v, .zero), hS kind .zero v hv⟩
  refine ⟨hpossible, ?_⟩
  intro s _
  cases hk : choose s.kind with
  | none =>
    refine .rejects (.nil s) (.unexpected wanted) hpossible ?_
    intro s' next' hread hcurrent
    rw [reads_nil.1 hread] at hcurrent ⊢
    have hkind : s'.kind = s.kind := congrArg Token.kind hcurrent
    rw [Reply.map_eq_fail, pick_eq_reject (hkind ▸ hk)]
    simp only [TokenStream.reject, TokenStream.kind, TokenStream.span, hcurrent]
  | some v =>
    have hlive : s.kind ≠ .eof := by
      intro heof
      rw [heof, hend] at hk
      cases hk
    obtain ⟨⟨kind, a⟩, rest, textEnd⟩ := s
    have hword : S [⟨kind, a⟩] (f (v, a)) := hS kind a v hk
    have htwin : ∀ s' next', Reads s' [⟨kind, a⟩] next' →
        ((s'.pick choose wanted).map f).Gives (f (v, a)) next' := by
      intro s' next' hread
      exact pick_map_gives.2 ⟨kind, a, v, reads_singleton.1 hread, hk, rfl⟩
    cases rest with
    | nil => exact .gives (.one (.last hlive)) hword fun s' next' h _ => htwin s' next' h
    | cons x rest =>
      cases x with
      | ok u => exact .gives (.one (.token hlive)) hword fun s' next' h _ => htwin s' next' h
      | error x =>
        refine .breaks (.nil _) hlive ⟨[], _, hword⟩ ?_
        rw [Reply.map_eq_fail, TokenStream.pick, dif_pos hlive]
        have hk' : choose (TokenStream.kind ⟨⟨kind, a⟩, .error x :: rest, textEnd⟩) = some v := hk
        rw [hk']
        rfl

/-- The next token decides which rule it is. -/
theorem byKind (h : ∀ kind, ∃ g : (s : TokenStream) → Reply α (bound s),
      (∀ s, s.kind = kind → rule s = g s) ∧ Predictive late size g R) :
    Predictive late size rule R := by
  obtain ⟨g, -, hend⟩ := h .eof
  refine ⟨hend.possible, ?_⟩
  intro s hlt
  obtain ⟨g, heq, hg⟩ := h s.kind
  have hsame : ∀ {ts : List Token} {next s' next' : TokenStream}, Reads s ts next →
      Reads s' ts next' → next'.current = next.current → rule s' = g s' :=
    fun hread hread' hcurrent => heq _ (congrArg Token.kind (hread.current_eq hread' hcurrent))
  cases hg.outcome s hlt with
  | gives hread hv htwin =>
    exact .gives hread hv fun s' next' h₁ h₂ => hsame hread h₁ h₂ ▸ htwin s' next' h₁ h₂
  | rejects hread hreported hfront htwin =>
    exact .rejects hread hreported hfront
      fun s' next' h₁ h₂ => (hsame hread h₁ h₂).trans (htwin s' next' h₁ h₂)
  | breaks hread hlive hfront hfail =>
    exact .breaks hread hlive hfront ((heq s rfl).trans hfail)

theorem ite (P : TokenKind → Prop) [DecidablePred P]
    {rule' : (s : TokenStream) → Reply α (bound s)} (h : Predictive late size rule R)
    (h' : Predictive late size rule' R) :
    Predictive late size (fun s => if P s.kind then rule s else rule' s) R := by
  apply byKind
  intro kind
  by_cases hkind : P kind
  · exact ⟨rule, fun s hs => if_pos (hs ▸ hkind), h⟩
  · exact ⟨rule', fun s hs => if_neg (hs ▸ hkind), h'⟩

/-- One rule behind another. The second may use the span of the token the first starts at, and
knows the tokens the first has read. -/
theorem andThenFrom {less : Nat} {g : Span → α → (s : TokenStream) → Reply β (s.size + 1)}
    (hr : Predictive late size rule R)
    (hless : ∀ s ts v next, s.size < size → Reads s ts next → (rule s).Gives v next →
      next.size < less)
    (hg : ∀ a v ts, R ts v → (∀ t ∈ ts.head?, a = t.span) →
      Predictive (late.behind ts) less (g a v) fun us w => S (ts ++ us) w) :
    Predictive late size (fun s => (rule s).andThen fun v s₁ _ => g s.span v s₁) S := by
  have hcomplete : ∀ front, Completable R front → Completable S front := by
    rintro front ⟨us, v, hv⟩
    have hstart : ∃ a : Span, ∀ t ∈ (front ++ us).head?, a = t.span := by
      cases (front ++ us).head? with
      | none => exact ⟨.zero, nofun⟩
      | some t => exact ⟨t.span, fun u hu => by cases hu; rfl⟩
    obtain ⟨a, ha⟩ := hstart
    obtain ⟨vs, w, hw⟩ := (hg a v _ hv ha).possible
    rw [List.nil_append, List.append_assoc] at hw
    exact ⟨us ++ vs, w, hw⟩
  refine ⟨hcomplete [] hr.possible, ?_⟩
  intro s hlt
  cases hr.outcome s hlt with
  | rejects hread hreported hfront htwin =>
    refine .rejects hread hreported (hcomplete _ hfront) ?_
    intro s' next' h₁ h₂
    simp only [htwin s' next' h₁ h₂, Reply.andThen]
  | breaks hread hlive hfront heq =>
    refine .breaks hread hlive (hcomplete _ hfront) ?_
    simp only [heq, Reply.andThen]
  | @gives ts v next hread hv htwin =>
    have hgives := htwin s next hread rfl
    have hrest := hg s.span v ts hv fun t ht => congrArg Token.span (hread.head_current ht)
    -- A stream with the same tokens comes by a place where the second rule does the same.
    have hmiddle : ∀ {us : List Token} {last s' last' : TokenStream}, Reads next us last →
        Reads s' (ts ++ us) last' → last'.current = last.current →
        ∃ next', Reads next' us last' ∧ (rule s').Gives v next' ∧ s'.span = s.span := by
      intro us last s' last' hus hread' hcurrent
      obtain ⟨next', hts, hus'⟩ := reads_append.1 hread'
      have hnext := hus.current_eq hus' hcurrent
      exact ⟨next', hus', htwin s' next' hts hnext,
        congrArg Token.span (hread.current_eq hts hnext)⟩
    cases hrest.outcome next (hless s ts v next hlt hread hgives) with
    | gives hread' hw htwin' =>
      refine .gives (hread.append hread') hw ?_
      intro s' last' h₁ h₂
      obtain ⟨next', hus, hv', hspan⟩ := hmiddle hread' h₁ h₂
      rw [hspan]
      exact Reply.andThen_gives.2 ⟨v, next', hv', htwin' next' last' hus h₂⟩
    | rejects hread' hreported hfront htwin' =>
      refine .rejects (hread.append hread') hreported.behind hfront.behind ?_
      intro s' last' h₁ h₂
      obtain ⟨next', hus, hv', hspan⟩ := hmiddle hread' h₁ h₂
      rw [hspan]
      exact hv'.andThen_eq_fail (htwin' next' last' hus h₂)
    | breaks hread' hlive hfront heq =>
      refine .breaks (hread.append hread') hlive ?_ (hgives.andThen_eq_fail heq)
      rw [List.append_assoc]
      exact hfront.behind

theorem andThenSpan {g : Span → α → (s : TokenStream) → Reply β (s.size + 1)}
    (hr : Predictive late size rule R)
    (hg : ∀ a v ts, R ts v → (∀ t ∈ ts.head?, a = t.span) →
      Predictive (late.behind ts) size (g a v) fun us w => S (ts ++ us) w) :
    Predictive late size (fun s => (rule s).andThen fun v s₁ _ => g s.span v s₁) S :=
  hr.andThenFrom (fun _ _ _ _ hlt hread _ => Nat.lt_of_le_of_lt hread.size_le hlt) hg

theorem andThen {g : α → (s : TokenStream) → Reply β (s.size + 1)}
    (hr : Predictive late size rule R)
    (hg : ∀ v ts, R ts v →
      Predictive (late.behind ts) size (g v) fun us w => S (ts ++ us) w) :
    Predictive late size (fun s => (rule s).andThen fun v s₁ _ => g v s₁) S :=
  hr.andThenSpan fun _ v ts hv _ => hg v ts hv

theorem andThenLess {rule : (s : TokenStream) → Reply α s.size}
    {g : α → (s : TokenStream) → Reply β (s.size + 1)} (hr : Predictive late (size + 1) rule R)
    (hg : ∀ v ts, R ts v →
      Predictive (late.behind ts) size (g v) fun us w => S (ts ++ us) w) :
    Predictive late (size + 1) (fun s => (rule s).andThen fun v s₁ _ => g v s₁) S :=
  hr.andThenFrom
    (fun _ _ _ _ hlt _ hgives => Nat.lt_of_lt_of_le hgives.shorter (Nat.le_of_lt_succ hlt))
    fun _ v ts hv _ => hg v ts hv

theorem andThenDone {f : α → β} (hr : Predictive late size rule R)
    (hS : ∀ ts v, R ts v → S ts (f v)) :
    Predictive late size (fun s => (rule s).andThen fun v s₁ _ => .done (f v) s₁) S := by
  refine hr.transfer ?_ ?_ hS
  · intro s v next hgives
    exact Reply.andThen_gives.2 ⟨v, next, hgives, Reply.done_gives.2 ⟨rfl, rfl⟩⟩
  · intro s e next hfail
    simp only [hfail, Reply.andThen]

theorem andThenRead {rule : (s : TokenStream) → Reply α (s.size + 1)}
    {g : α → (s : TokenStream) → Reply β s.size} (hr : Predictive late size rule R)
    (hg : ∀ v ts, R ts v →
      Predictive (late.behind ts) size (g v) fun us w => S (ts ++ us) w) :
    Predictive late size (fun s => (rule s).andThenRead fun v s₁ _ => g v s₁) S :=
  of_lax (of_eq (fun _ => Reply.lax_andThenRead) (hr.andThen fun v ts hv => (hg v ts hv).lax))

/-- A loop that reads items for as long as the next token says that there is one. -/
theorem each {item : (s : TokenStream) → Reply α s.size}
    {many : (s : TokenStream) → Reply (List α) (s.size + 1)} (going : TokenKind → Prop)
    [DecidablePred going]
    (hmany : ∀ s, many s =
      if going s.kind then
        .lax <| (item s).andThen fun first s₁ _ =>
        (many s₁).andThen fun others s₂ _ =>
        .done (first :: others) s₂
      else
        .done [] s)
    (hitem : Predictive noFaults size item R) : Predictive noFaults size many (Each R) := by
  induction size with
  | zero => exact .zero ⟨[], [], .nil⟩
  | succ size ih =>
    have hless := ih (hitem.weaken (Nat.le_succ size))
    have hmore : Predictive noFaults (size + 1) (fun s =>
        (item s).andThen fun first s₁ _ =>
        (many s₁).andThen fun others s₂ _ =>
        .done (first :: others) s₂) (Each R) := by
      refine hitem.andThenLess fun first ts hfirst => ?_
      exact hless.andThenDone fun us others hothers => .cons hfirst hothers
    apply byKind
    intro kind
    by_cases hkind : going kind
    · exact ⟨_, fun s hs => (hmany s).trans (if_pos (hs ▸ hkind)), hmore.lax⟩
    · exact ⟨_, fun s hs => (hmany s).trans (if_neg (hs ▸ hkind)), .done .nil⟩

end Predictive

end Parser

end Decaf
