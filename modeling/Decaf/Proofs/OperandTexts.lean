import Decaf.Proofs.Renaming

namespace Decaf

theorem Node.Within.trans {a b c : Node} (hab : a.Within b) (hbc : b.Within c) : a.Within c := by
  induction hbc with
  | root => exact hab
  | child _ hmem ih => exact .child ih hmem

theorem Node.Within.eq_or_child {a b : Node} (h : a.Within b) :
    a = b ∨ ∃ c ∈ a.children, c.Within b := by
  induction h with
  | root => exact .inl rfl
  | @child b d _ hd ih =>
    rcases ih with rfl | ⟨c, hc, hwithin⟩
    · exact .inr ⟨d, hd, .root⟩
    · exact .inr ⟨c, hc, .child hwithin hd⟩

def Defect.isOperator : Defect → Bool
  | .typeMismatch (.operator _) _ _ => true
  | _ => false

/-- Every diagnostic about an operator shows the operands of an operation of the program. -/
theorem Program.shows_findings (rules : RuleSet) (p : Program) :
    ∀ d ∈ p.findings rules, d.defect.isOperator = true → ∃ op left right span,
      (Node.program p).Within (.expr (.binary op left right span)) ∧
        d = .ofSpan (.typeMismatch (.operator op.category) left.text right.text) span := by
  intro d hd hop
  rcases complaint_of_mem_findings hd with ⟨c, span, hfrom, rfl⟩ | ⟨line, rfl⟩
  · cases c with
    | operands category left right =>
      obtain ⟨op, rfl, hwithin⟩ := hfrom
      exact ⟨op, left, right, span, hwithin, rfl⟩
    | _ => cases hop
  · cases hop

end Decaf
