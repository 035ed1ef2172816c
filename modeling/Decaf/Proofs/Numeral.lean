import Mathlib.Data.Nat.Digits.Defs
import Mathlib.Tactic.IntervalCases
import Decaf.ArraySize

namespace Decaf.ArraySize

/-- The digit of value `v` is entry `v` of the row of all digits, in small or capital letters. -/
def IsDigit (c : Char) (v : Nat) : Prop :=
  "0123456789abcdef".toList[v]? = some c ∨ "0123456789ABCDEF".toList[v]? = some c

/-- A non-empty row of digits of a base, most significant first, and its value. -/
inductive Numeral (base : Nat) : List Char → Nat → Prop
  | mk {cs : List Char} {ds : List Nat} (digits : List.Forall₂ IsDigit cs ds)
      (nonempty : cs ≠ []) (small : ∀ d ∈ ds, d < base) :
      Numeral base cs (Nat.ofDigits base ds.reverse)

inductive Signed (base : Nat) : List Char → Int → Prop
  | bare {cs : List Char} {n : Nat} : Numeral base cs n → Signed base cs n
  | plus {cs : List Char} {n : Nat} : Numeral base cs n → Signed base ('+' :: cs) n
  | minus {cs : List Char} {n : Nat} : Numeral base cs n → Signed base ('-' :: cs) (-n)

/-- The integer a size text stands for: hexadecimal behind `0x`, decimal otherwise. -/
inductive Denotes : List Char → Int → Prop
  | hexadecimal {cs : List Char} {n : Int} : Signed 16 cs n → Denotes ('0' :: 'x' :: cs) n
  | decimal {cs : List Char} {n : Int} :
      ¬ ['0', 'x'] <+: cs → Signed 10 cs n → Denotes cs n

theorem isDigit_of_digit? {base : Nat} {c : Char} {v : Nat} (h : digit? base c = some v) :
    IsDigit c v := by
  have hc : c = Char.ofNat c.toNat := (Char.ofNat_toNat c).symm
  simp only [digit?, Option.filter_eq_some_iff, decide_eq_true_eq] at h
  obtain ⟨h, -⟩ := h
  split at h
  · next hr =>
    have hl : 48 ≤ c.toNat := hr.1
    have hu : c.toNat ≤ 57 := hr.2
    cases h
    rw [hc]
    generalize c.toNat = n at hl hu
    interval_cases n <;> exact .inl rfl
  split at h
  · next hr =>
    have hl : 97 ≤ c.toNat := hr.1
    have hu : c.toNat ≤ 102 := hr.2
    cases h
    rw [hc]
    generalize c.toNat = n at hl hu
    interval_cases n <;> exact .inl rfl
  split at h
  · next hr =>
    have hl : 65 ≤ c.toNat := hr.1
    have hu : c.toNat ≤ 70 := hr.2
    cases h
    rw [hc]
    generalize c.toNat = n at hl hu
    interval_cases n <;> exact .inr rfl
  · cases h

theorem digit?_of_isDigit {base : Nat} {c : Char} {v : Nat} (h : IsDigit c v) (hv : v < base) :
    digit? base c = some v := by
  have h16 : v < 16 := by
    rcases h with h | h
    · exact (List.getElem?_eq_some_iff.mp h).1
    · exact (List.getElem?_eq_some_iff.mp h).1
  have hd : digit? 16 c = some v := by
    rcases h with h | h <;> interval_cases v <;> cases h <;> decide
  simp only [digit?, Option.filter_eq_some_iff] at hd ⊢
  exact ⟨hd.1, by simpa using hv⟩

theorem digit?_eq_some_iff {base : Nat} {c : Char} {v : Nat} :
    digit? base c = some v ↔ IsDigit c v ∧ v < base := by
  constructor
  · intro h
    refine ⟨isDigit_of_digit? h, ?_⟩
    simp only [digit?, Option.filter_eq_some_iff, decide_eq_true_eq] at h
    exact h.2
  · rintro ⟨h, hv⟩
    exact digit?_of_isDigit h hv

theorem digits_eq_some_iff {base read n : Nat} {cs : List Char} :
    digits base read cs = some n ↔
      ∃ ds, List.Forall₂ IsDigit cs ds ∧ (∀ d ∈ ds, d < base) ∧
        n = Nat.ofDigits base ds.reverse + base ^ ds.length * read := by
  induction cs generalizing read with
  | nil =>
    constructor
    · rintro ⟨⟩
      exact ⟨[], .nil, by simp, by simp⟩
    · rintro ⟨_, ⟨⟩, -, rfl⟩
      simp [digits]
  | cons c cs ih =>
    have hstep : ∀ (d : Nat) (ds : List Nat),
        Nat.ofDigits base (d :: ds).reverse + base ^ (d :: ds).length * read =
          Nat.ofDigits base ds.reverse + base ^ ds.length * (read * base + d) := by
      intro d ds
      simp only [List.reverse_cons, Nat.ofDigits_append, Nat.ofDigits_singleton,
        List.length_reverse, List.length_cons]
      ring
    constructor
    · intro h
      rw [digits] at h
      split at h
      · next d hd =>
        obtain ⟨hc, hb⟩ := digit?_eq_some_iff.mp hd
        obtain ⟨ds, hds, hsmall, rfl⟩ := ih.mp h
        refine ⟨d :: ds, .cons hc hds, ?_, (hstep d ds).symm⟩
        rintro e (_ | ⟨_, he⟩)
        · exact hb
        · exact hsmall e he
      · cases h
    · rintro ⟨_, ⟨⟩ | ⟨hc, hds⟩, hsmall, rfl⟩
      next d ds =>
      have hd : digit? base c = some d := digit?_of_isDigit hc (hsmall d (by simp))
      have hrest : ∀ e ∈ ds, e < base := fun e he => hsmall e (by simp [he])
      rw [digits, hd]
      exact ih.mpr ⟨ds, hds, hrest, hstep d ds⟩

theorem natural_eq_some_iff {base n : Nat} {cs : List Char} :
    natural base cs = some n ↔ Numeral base cs n := by
  constructor
  · intro h
    cases cs with
    | nil => cases h
    | cons c cs =>
      obtain ⟨ds, hds, hsmall, rfl⟩ := digits_eq_some_iff.mp h
      simpa using Numeral.mk hds (by simp) hsmall
  · rintro ⟨hds, hne, hsmall⟩
    next ds =>
    cases cs with
    | nil => exact absurd rfl hne
    | cons c cs => exact digits_eq_some_iff.mpr ⟨ds, hds, hsmall, by simp⟩

theorem Numeral.ne_cons {base n : Nat} {c : Char} {cs : List Char} (h : ∀ v, ¬ IsDigit c v) :
    ¬ Numeral base (c :: cs) n := by
  rintro ⟨⟨⟩ | ⟨hc, -⟩, -, -⟩
  exact h _ hc

theorem not_isDigit_of_digit?_eq_none {c : Char} (h : digit? 16 c = none) (v : Nat) :
    ¬ IsDigit c v := by
  intro hv
  have hlt : v < 16 := by
    rcases hv with hv | hv
    · exact (List.getElem?_eq_some_iff.mp hv).1
    · exact (List.getElem?_eq_some_iff.mp hv).1
  rw [digit?_of_isDigit hv hlt] at h
  cases h

theorem integer_eq_some_iff {base : Nat} {n : Int} {cs : List Char} :
    integer base cs = some n ↔ Signed base cs n := by
  have hplus : ∀ v, ¬ IsDigit '+' v := not_isDigit_of_digit?_eq_none (by decide)
  have hminus : ∀ v, ¬ IsDigit '-' v := not_isDigit_of_digit?_eq_none (by decide)
  constructor
  · intro h
    unfold integer at h
    split at h
    · obtain ⟨m, hm, rfl⟩ := Option.map_eq_some_iff.mp h
      exact .plus (natural_eq_some_iff.mp hm)
    · simp only [Option.pure_def, Option.bind_eq_bind, Option.map_eq_some_iff,
        Option.bind_eq_some_iff, Option.some.injEq] at h
      obtain ⟨_, ⟨m, hm, rfl⟩, rfl⟩ := h
      exact .minus (natural_eq_some_iff.mp hm)
    · obtain ⟨m, hm, rfl⟩ := Option.map_eq_some_iff.mp h
      exact .bare (natural_eq_some_iff.mp hm)
  · intro h
    cases h with
    | plus hm => simp [integer, natural_eq_some_iff.mpr hm]
    | minus hm => simp [integer, natural_eq_some_iff.mpr hm]
    | bare hm =>
      unfold integer
      split
      · exact absurd hm (Numeral.ne_cons hplus)
      · exact absurd hm (Numeral.ne_cons hminus)
      · simp [natural_eq_some_iff.mpr hm]

theorem value_eq_some_iff {n : Int} {cs : List Char} : value cs = some n ↔ Denotes cs n := by
  constructor
  · intro h
    unfold value at h
    split at h
    · exact .hexadecimal (integer_eq_some_iff.mp h)
    · next hx =>
      refine .decimal ?_ (integer_eq_some_iff.mp h)
      rintro ⟨rest, rfl⟩
      exact hx rest rfl
  · intro h
    cases h with
    | hexadecimal h => exact integer_eq_some_iff.mpr h
    | decimal hx h =>
      unfold value
      split
      · exact absurd ⟨_, rfl⟩ hx
      · exact integer_eq_some_iff.mpr h

/-- The legal sizes are the texts that denote a positive integer of 31 bits. -/
theorem read?_eq_some_iff {text : String} {n : Nat} :
    read? text = some n ↔ Denotes text.toList n ∧ 1 ≤ n ∧ n ≤ 2 ^ 31 - 1 := by
  constructor
  · intro h
    unfold read? at h
    split at h
    · next v hv =>
      split at h
      · next hr =>
        cases h
        have hn : ((v.toNat : Nat) : Int) = v := Int.toNat_of_nonneg (by omega)
        have := hr.2
        simp only [largest] at this
        refine ⟨by rw [hn]; exact value_eq_some_iff.mp hv, by omega, by omega⟩
      · cases h
    · cases h
  · rintro ⟨hd, hl, hu⟩
    have hr : 1 ≤ (n : Int) ∧ (n : Int) ≤ largest := by
      simp only [largest]
      omega
    simp [read?, value_eq_some_iff.mpr hd, hr]

end Decaf.ArraySize
