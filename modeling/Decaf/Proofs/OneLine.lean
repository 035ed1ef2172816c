import Decaf.Proofs.FaithfulText
import Decaf.Report

namespace Decaf

open Lexical
open scoped Computability

namespace Lexical

/-- No word of the language has a line feed. -/
def Feedless (l : Language Char) : Prop := ∀ w ∈ l, '\n' ∉ w

namespace Feedless

variable {l m : Language Char}

theorem one {p : Char → Prop} (hp : ¬ p '\n') : Feedless (one p) := by
  rintro _ ⟨c, hc, rfl⟩ hmem
  exact hp (List.mem_singleton.1 hmem ▸ hc)

theorem only {word : List Char} (h : '\n' ∉ word) : Feedless (only word) := by
  intro w hw
  rwa [mem_only.1 hw]

theorem add (hl : Feedless l) (hm : Feedless m) : Feedless (l + m) := by
  rintro w (hw | hw)
  · exact hl w hw
  · exact hm w hw

theorem mul (hl : Feedless l) (hm : Feedless m) : Feedless (l * m) := by
  intro w hw
  obtain ⟨u, hu, v, hv, rfl⟩ := Language.mem_mul.1 hw
  rw [List.mem_append, not_or]
  exact ⟨hl u hu, hm v hv⟩

theorem kstar (hl : Feedless l) : Feedless l∗ := by
  intro w hw
  obtain ⟨words, rfl, hwords⟩ := Language.mem_kstar.1 hw
  rw [List.mem_flatten]
  rintro ⟨u, hu, hmem⟩
  exact hl u (hwords u hu) hmem

theorem oneOrMore (hl : Feedless l) : Feedless (oneOrMore l) := hl.mul hl.kstar

theorem escape : Feedless escape := (only (by decide)).mul (one (by decide))

end Feedless

end Lexical

def OneLine (s : String) : Prop := '\n' ∉ s.toList

instance (s : String) : Decidable (OneLine s) := inferInstanceAs (Decidable ('\n' ∉ s.toList))

theorem OneLine.append {s t : String} (hs : OneLine s) (ht : OneLine t) : OneLine (s ++ t) := by
  rw [OneLine, String.toList_append, List.mem_append, not_or]
  exact ⟨hs, ht⟩

end Decaf
