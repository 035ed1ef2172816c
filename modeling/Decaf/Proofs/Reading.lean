import Decaf.Parser.Program
import Decaf.Proofs.Grammar

namespace Decaf

theorem ScalarType.ofKind?_eq_some_iff {kind : TokenKind} {type : ScalarType} :
    ofKind? kind = some type ↔ kind = type.kind := by
  constructor
  · intro h
    unfold ofKind? at h
    split at h <;> cases h <;> rfl
  · rintro rfl
    cases type <;> rfl

theorem AssignOp.ofKind?_eq_some_iff {kind : TokenKind} {op : AssignOp} :
    ofKind? kind = some op ↔ kind = .punct op.mark := by
  constructor
  · intro h
    unfold ofKind? at h
    split at h <;> cases h <;> rfl
  · rintro rfl
    cases op <;> rfl

theorem UnaryOp.ofKind?_eq_some_iff {kind : TokenKind} {op : UnaryOp} :
    ofKind? kind = some op ↔ kind = .punct op.mark := by
  constructor
  · intro h
    unfold ofKind? at h
    split at h <;> cases h <;> rfl
  · rintro rfl
    cases op <;> rfl

theorem BinaryOp.ofKind?_eq_some_iff {kind : TokenKind} {op : BinaryOp} :
    ofKind? kind = some op ↔ kind = .punct op.mark := by
  constructor
  · intro h
    unfold ofKind? at h
    split at h <;> cases h <;> rfl
  · rintro rfl
    cases op <;> rfl

theorem BinaryOp.atLevel?_eq_some_iff {level : Nat} {kind : TokenKind} {op : BinaryOp} :
    atLevel? level kind = some op ↔ kind = .punct op.mark ∧ op.level = level := by
  simp [atLevel?, Option.filter_eq_some_iff, ofKind?_eq_some_iff]

/-- The stream moves past its current token to one that could be read. -/
inductive TokenStream.Step : TokenStream → Token → TokenStream → Prop
  | last {t textEnd} : t.kind ≠ .eof → Step ⟨t, [], textEnd⟩ t ⟨⟨.eof, textEnd⟩, [], textEnd⟩
  | token {t u rest textEnd} : t.kind ≠ .eof →
      Step ⟨t, .ok u :: rest, textEnd⟩ t ⟨u, rest, textEnd⟩

/-- The tokens that lie between two places of a stream. -/
inductive TokenStream.Reads : TokenStream → List Token → TokenStream → Prop
  | nil (s : TokenStream) : Reads s [] s
  | cons {s s₁ next : TokenStream} {t ts} : Step s t s₁ → Reads s₁ ts next → Reads s (t :: ts) next

namespace TokenStream

variable {s s₁ next : TokenStream} {t : Token} {ts us : List Token}

theorem Step.current (h : Step s t next) : s.current = t := by cases h <;> rfl

theorem Step.kind (h : Step s t next) : s.kind = t.kind := by rw [TokenStream.kind, h.current]

theorem Step.span (h : Step s t next) : s.span = t.span := by rw [TokenStream.span, h.current]

theorem Step.live (h : Step s t next) : t.kind ≠ .eof := by cases h <;> assumption

theorem Step.shorter (h : Step s t next) : next.size < s.size := by
  cases h with
  | last live => simp [size, TokenStream.kind, live]
  | @token _ u rest textEnd live =>
    have hkind : (TokenStream.mk t (.ok u :: rest) textEnd).kind ≠ .eof := live
    rw [size, size, if_neg hkind]
    dsimp only [List.length_cons]
    split <;> omega

theorem Reads.one (h : Step s t next) : Reads s [t] next := .cons h (.nil next)

theorem Reads.append (h : Reads s ts s₁) (h' : Reads s₁ us next) : Reads s (ts ++ us) next := by
  induction h with
  | nil => exact h'
  | cons hstep _ ih => exact .cons hstep (ih h')

@[simp] theorem reads_nil : Reads s [] next ↔ next = s :=
  ⟨fun h => by cases h; rfl, fun h => h ▸ .nil s⟩

@[simp] theorem reads_cons : Reads s (t :: ts) next ↔ ∃ s₁, Step s t s₁ ∧ Reads s₁ ts next :=
  ⟨fun h => by cases h with | cons h₁ h₂ => exact ⟨_, h₁, h₂⟩, fun ⟨_, h₁, h₂⟩ => .cons h₁ h₂⟩

theorem reads_singleton : Reads s [t] next ↔ Step s t next := by
  constructor
  · intro h
    obtain ⟨s₁, hstep, hnil⟩ := reads_cons.1 h
    exact reads_nil.1 hnil ▸ hstep
  · exact Reads.one

theorem Reads.head_kind (h : Reads s (t :: ts) next) : s.kind = t.kind := by
  obtain ⟨s₁, hstep, -⟩ := reads_cons.1 h
  exact hstep.kind

theorem Reads.head_span (h : Reads s (t :: ts) next) : s.span = t.span := by
  obtain ⟨s₁, hstep, -⟩ := reads_cons.1 h
  exact hstep.span

@[simp] theorem reads_append :
    Reads s (ts ++ us) next ↔ ∃ s₁, Reads s ts s₁ ∧ Reads s₁ us next := by
  constructor
  · intro h
    induction ts generalizing s with
    | nil => exact ⟨s, .nil s, h⟩
    | cons t ts ih =>
      obtain ⟨s₁, hstep, hrest⟩ := reads_cons.1 h
      obtain ⟨s₂, hts, hus⟩ := ih hrest
      exact ⟨s₂, .cons hstep hts, hus⟩
  · rintro ⟨s₁, hts, hus⟩
    exact hts.append hus

end TokenStream

/-- The reply is a success with this value and leaves this input. -/
def Reply.Gives {α : Type} {n : Nat} (r : Reply α n) (value : α) (next : TokenStream) : Prop :=
  ∃ shorter, r = .ok value next shorter

namespace Reply

variable {α β : Type} {n : Nat} {v : α} {w : β} {s next last : TokenStream}

theorem Gives.shorter {r : Reply α n} (h : r.Gives v next) : next.size < n := h.1

theorem Gives.unique {r : Reply α n} {u : α} (h : r.Gives v next) (h' : r.Gives u last) :
    u = v ∧ last = next := by
  obtain ⟨_, hr⟩ := h
  obtain ⟨_, hr'⟩ := h'
  rw [hr] at hr'
  cases hr'
  exact ⟨rfl, rfl⟩

@[simp] theorem fail_gives {e : ParseError} : ¬ (fail e s : Reply α n).Gives v next := by
  rintro ⟨_, h⟩
  cases h

@[simp] theorem done_gives {u : α} : (done u s).Gives v next ↔ v = u ∧ next = s := by
  constructor
  · rintro ⟨_, h⟩
    cases h
    exact ⟨rfl, rfl⟩
  · rintro ⟨rfl, rfl⟩
    exact ⟨_, rfl⟩

@[simp] theorem lax_gives {r : Reply α n} : r.lax.Gives v next ↔ r.Gives v next := by
  cases r with
  | fail e s => simp [lax]
  | ok u s h =>
    constructor
    · rintro ⟨_, hr⟩
      cases hr
      exact ⟨h, rfl⟩
    · rintro ⟨_, hr⟩
      cases hr
      exact ⟨_, rfl⟩

@[simp] theorem map_gives {r : Reply α n} {f : α → β} :
    (r.map f).Gives w next ↔ ∃ v, r.Gives v next ∧ w = f v := by
  cases r with
  | fail e s => simp [map]
  | ok u s h =>
    constructor
    · rintro ⟨_, hr⟩
      cases hr
      exact ⟨u, ⟨h, rfl⟩, rfl⟩
    · rintro ⟨v, ⟨_, hr⟩, rfl⟩
      cases hr
      exact ⟨h, rfl⟩

@[simp] theorem andThen_gives {r : Reply α n}
    {f : α → (s : TokenStream) → Reply β (s.size + 1)} :
    (r.andThen fun v s _ => f v s).Gives w last ↔
      ∃ v next, r.Gives v next ∧ (f v next).Gives w last := by
  cases r with
  | fail e s => simp [andThen]
  | ok u s h =>
    have hgo : ((Reply.ok u s h).andThen fun v s _ => f v s).Gives w last ↔
        (f u s).Gives w last := by
      cases hf : f u s with
      | fail e t => simp [andThen, hf]
      | ok x t ht =>
        simp only [andThen, hf]
        constructor <;>
        · rintro ⟨_, hr⟩
          cases hr
          exact ⟨_, rfl⟩
    rw [hgo]
    constructor
    · exact fun hf => ⟨u, s, ⟨h, rfl⟩, hf⟩
    · rintro ⟨v, next, ⟨_, hr⟩, hf⟩
      cases hr
      exact hf

@[simp] theorem andThenRead_gives {r : Reply α (n + 1)}
    {f : α → (s : TokenStream) → Reply β s.size} :
    (r.andThenRead fun v s _ => f v s).Gives w last ↔
      ∃ v next, r.Gives v next ∧ (f v next).Gives w last := by
  cases r with
  | fail e s => simp [andThenRead]
  | ok u s h =>
    have hgo : ((Reply.ok u s h).andThenRead fun v s _ => f v s).Gives w last ↔
        (f u s).Gives w last := by
      cases hf : f u s with
      | fail e t => simp [andThenRead, hf]
      | ok x t ht =>
        simp only [andThenRead, hf]
        constructor <;>
        · rintro ⟨_, hr⟩
          cases hr
          exact ⟨_, rfl⟩
    rw [hgo]
    constructor
    · exact fun hf => ⟨u, s, ⟨h, rfl⟩, hf⟩
    · rintro ⟨v, next, ⟨_, hr⟩, hf⟩
      cases hr
      exact hf

end Reply

namespace TokenStream

variable {α : Type} {s next : TokenStream} {a : Span}

@[simp] theorem reject_gives {n : Nat} {v : α} {wanted : Expectation} :
    ¬ (s.reject wanted : Reply α n).Gives v next := Reply.fail_gives

theorem advance_gives {live : s.kind ≠ .eof} :
    (s.advance live).Gives a next ↔ Step s ⟨s.kind, a⟩ next := by
  obtain ⟨⟨kind, b⟩, rest, textEnd⟩ := s
  constructor
  · rintro ⟨_, h⟩
    unfold advance at h
    split at h
    · next hrest =>
      cases hrest
      cases h
      exact .last live
    · next hrest =>
      cases hrest
      cases h
      exact .token live
    · cases h
  · intro h
    cases h with
    | last _ => exact ⟨_, rfl⟩
    | token _ => exact ⟨_, rfl⟩

theorem pick_gives {choose : TokenKind → Option α} {wanted : Expectation} {v : α} :
    (s.pick choose wanted).Gives (v, a) next ↔
      ∃ kind, Step s ⟨kind, a⟩ next ∧ choose kind = some v := by
  unfold pick
  split
  · split
    · next u hu =>
      simp only [Reply.map_gives, advance_gives, Prod.mk.injEq]
      constructor
      · rintro ⟨_, hstep, rfl, rfl⟩
        exact ⟨s.kind, hstep, hu⟩
      · rintro ⟨kind, hstep, hk⟩
        obtain rfl := hstep.kind
        rw [hu] at hk
        exact ⟨a, hstep, (Option.some.inj hk).symm, rfl⟩
    · next hnone =>
      simp only [reject_gives, false_iff]
      rintro ⟨kind, hstep, hk⟩
      obtain rfl := hstep.kind
      simp [hnone] at hk
  · next hend =>
    simp only [reject_gives, false_iff]
    rintro ⟨kind, hstep, -⟩
    exact hend (hstep.kind ▸ hstep.live)

@[simp high] theorem pick_map_gives {β : Type} {choose : TokenKind → Option α}
    {wanted : Expectation} {f : α × Span → β} {w : β} :
    ((s.pick choose wanted).map f).Gives w next ↔
      ∃ kind a v, Step s ⟨kind, a⟩ next ∧ choose kind = some v ∧ w = f (v, a) := by
  simp only [Reply.map_gives, Prod.exists, pick_gives]
  constructor
  · rintro ⟨v, a, ⟨kind, hstep, hk⟩, hw⟩
    exact ⟨kind, a, v, hstep, hk, hw⟩
  · rintro ⟨kind, a, v, hstep, hk, hw⟩
    exact ⟨v, a, ⟨kind, hstep, hk⟩, hw⟩

theorem expect_gives {wanted : TokenKind} :
    (s.expect wanted).Gives a next ↔ Step s ⟨wanted, a⟩ next := by
  simp only [expect, pick_map_gives]
  constructor
  · rintro ⟨kind, b, v, hstep, hk, rfl⟩
    split at hk
    · next h => exact h ▸ hstep
    · cases hk
  · intro hstep
    exact ⟨wanted, a, (), hstep, if_pos rfl, rfl⟩

@[simp] theorem keyword_gives {word : Keyword} :
    (s.keyword word).Gives a next ↔ Step s ⟨.keyword word, a⟩ next := expect_gives

@[simp] theorem punct_gives {mark : Punct} :
    (s.punct mark).Gives a next ↔ Step s ⟨.punct mark, a⟩ next := expect_gives

@[simp] theorem identifier_gives {name : Name} :
    s.identifier.Gives name next ↔ Step s ⟨.identifier name.text, name.span⟩ next := by
  simp only [identifier, pick_map_gives]
  constructor
  · rintro ⟨kind, a, text, hstep, hk, rfl⟩
    cases kind <;> cases hk
    exact hstep
  · intro hstep
    exact ⟨_, _, _, hstep, rfl, rfl⟩

@[simp] theorem typeName_gives {type : ScalarType} :
    s.typeName.Gives type next ↔ ∃ a, Step s ⟨type.kind, a⟩ next := by
  simp only [typeName, pick_map_gives]
  constructor
  · rintro ⟨kind, a, v, hstep, hk, rfl⟩
    exact ⟨a, ScalarType.ofKind?_eq_some_iff.1 hk ▸ hstep⟩
  · rintro ⟨a, hstep⟩
    exact ⟨_, a, type, hstep, ScalarType.ofKind?_eq_some_iff.2 rfl, rfl⟩

@[simp] theorem arraySize_gives {size : String} :
    s.arraySize.Gives size next ↔ ∃ kind a, Step s ⟨kind, a⟩ next ∧ kind.integer? = some size := by
  simp [arraySize]

@[simp] theorem calloutName_gives {name : String} :
    s.calloutName.Gives name next ↔ ∃ a, Step s ⟨.stringLiteral name, a⟩ next := by
  simp only [calloutName, pick_map_gives]
  constructor
  · rintro ⟨kind, a, v, hstep, hk, rfl⟩
    cases kind <;> cases hk
    exact ⟨a, hstep⟩
  · rintro ⟨a, hstep⟩
    exact ⟨_, a, name, hstep, rfl, rfl⟩

@[simp] theorem assignOp_gives {op : AssignOp} :
    s.assignOp.Gives op next ↔ ∃ a, Step s ⟨.punct op.mark, a⟩ next := by
  simp only [assignOp, pick_map_gives]
  constructor
  · rintro ⟨kind, a, v, hstep, hk, rfl⟩
    exact ⟨a, AssignOp.ofKind?_eq_some_iff.1 hk ▸ hstep⟩
  · rintro ⟨a, hstep⟩
    exact ⟨_, a, op, hstep, AssignOp.ofKind?_eq_some_iff.2 rfl, rfl⟩

end TokenStream

end Decaf
