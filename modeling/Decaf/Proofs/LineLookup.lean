import Decaf.LineIndex
import Mathlib.Order.Monotone.Basic
import Mathlib.Order.Nat

namespace Decaf

/-- The number of line feeds among the first `offset` bytes of a text. -/
def feedsBefore (text : String) (offset : Nat) : Nat :=
  (text.toUTF8.data.toList.take offset).count 10

theorem toUTF8_eq_flatMap (text : String) :
    text.toUTF8.data.toList = text.toList.flatMap String.utf8EncodeChar := by
  rw [← String.ofList_toList (s := text), String.toUTF8, String.toByteArray_ofList,
    List.utf8Encode, List.data_toByteArray, String.toList_ofList]

theorem feed_notMem_utf8EncodeChar {c : Char} (hc : c ≠ '\n') : 10 ∉ String.utf8EncodeChar c := by
  have hval : c.val.toNat ≠ 10 := by
    intro h
    apply hc
    exact Char.ext (UInt32.toNat_inj.mp h)
  have hbyte : ∀ n < 256, n ≠ 10 → (10 : UInt8) ≠ UInt8.ofNat n := by
    intro n hlt hne heq
    have hnat := congrArg UInt8.toNat heq
    rw [UInt8.toNat_ofNat_of_lt' hlt] at hnat
    exact hne hnat.symm
  unfold String.utf8EncodeChar
  dsimp only
  split
  · simp only [List.mem_singleton]
    exact hbyte _ (by omega) hval
  · split
    · simp only [List.mem_cons, List.not_mem_nil, or_false, not_or]
      exact ⟨hbyte _ (by omega) (by omega), hbyte _ (by omega) (by omega)⟩
    · split
      · simp only [List.mem_cons, List.not_mem_nil, or_false, not_or]
        exact ⟨hbyte _ (by omega) (by omega), hbyte _ (by omega) (by omega),
          hbyte _ (by omega) (by omega)⟩
      · simp only [List.mem_cons, List.not_mem_nil, or_false, not_or]
        exact ⟨hbyte _ (by omega) (by omega), hbyte _ (by omega) (by omega),
          hbyte _ (by omega) (by omega), hbyte _ (by omega) (by omega)⟩

namespace LineIndex

theorem lt_of_mem_startsAfterFeeds {offset start : Nat} {cs : List Char}
    (h : start ∈ startsAfterFeeds offset cs) : offset < start := by
  induction cs generalizing offset with
  | nil => cases h
  | cons c cs ih =>
    have hpos := c.utf8Size_pos
    simp only [startsAfterFeeds] at h
    split at h
    · rcases List.mem_cons.mp h with rfl | h
      · omega
      · have := ih h
        omega
    · have := ih h
      omega

theorem startsAfterFeeds_pairwise (offset : Nat) (cs : List Char) :
    (startsAfterFeeds offset cs).Pairwise (· < ·) := by
  induction cs generalizing offset with
  | nil => exact .nil
  | cons c cs ih =>
    simp only [startsAfterFeeds]
    split
    · exact .cons (fun _ => lt_of_mem_startsAfterFeeds) (ih _)
    · exact ih _

/-- A line starts at or before `limit` for every line feed in front of it. -/
theorem countP_startsAfterFeeds (offset limit : Nat) (cs : List Char) :
    (startsAfterFeeds offset cs).countP (· ≤ limit) =
      ((cs.flatMap String.utf8EncodeChar).take (limit - offset)).count 10 := by
  induction cs generalizing offset with
  | nil => simp [startsAfterFeeds]
  | cons c cs ih =>
    have hrest : limit - (offset + c.utf8Size) =
        limit - offset - (String.utf8EncodeChar c).length := by
      rw [String.length_utf8EncodeChar]
      omega
    rw [List.flatMap_cons, List.take_append, List.count_append, ← hrest, ← ih]
    by_cases hfeed : c = '\n'
    · subst hfeed
      have hbytes : String.utf8EncodeChar '\n' = [10] := rfl
      rw [startsAfterFeeds, if_pos rfl, List.countP_cons, hbytes, Nat.add_comm]
      congr 1
      have hsize : Char.utf8Size '\n' = 1 := rfl
      by_cases hle : offset + 1 ≤ limit
      · obtain ⟨k, hk⟩ : ∃ k, limit - offset = k + 1 := ⟨limit - offset - 1, by omega⟩
        rw [hk, List.take_succ_cons]
        simp [hsize, hle]
      · have hzero : limit - offset = 0 := by omega
        rw [hzero, List.take_zero]
        simp [hsize, hle]
    · have hnone : ((String.utf8EncodeChar c).take (limit - offset)).count 10 = 0 :=
        List.count_eq_zero.mpr fun h => feed_notMem_utf8EncodeChar hfeed (List.mem_of_mem_take h)
      simp only [startsAfterFeeds, if_neg hfeed, hnone, Nat.zero_add]

/-- `k` parts the entries: those in front of it are at or below the offset, the others above. -/
structure PartsAt (starts : Array Nat) (offset k : Nat) : Prop where
  bound : k ≤ starts.size
  low : ∀ i (h : i < starts.size), i < k → starts[i] ≤ offset
  high : ∀ i (h : i < starts.size), k ≤ i → offset < starts[i]

/-- The search keeps all entries in front of `lo` at or below the offset and all from `hi` on
above it. -/
theorem search_partsAt {starts : Array Nat} (hsorted : starts.toList.Pairwise (· < ·))
    (offset lo hi : Nat) (bound : hi ≤ starts.size) (hle : lo ≤ hi)
    (hlow : ∀ i (h : i < starts.size), i < lo → starts[i] ≤ offset)
    (hhigh : ∀ i (h : i < starts.size), hi ≤ i → offset < starts[i]) :
    PartsAt starts offset (search starts offset lo hi bound) := by
  have hmono : ∀ i j (hj : j < starts.size), (hij : i < j) → starts[i] < starts[j] := by
    intro i j hj hij
    exact List.pairwise_iff_getElem.mp hsorted i j (by simpa using Nat.lt_trans hij hj)
      (by simpa using hj) hij
  fun_induction search starts offset lo hi bound with
  | case1 lo hi bound hlt mid hmid hsmall ih =>
    refine ih (by omega) ?_ hhigh hmono
    intro i h hi
    rcases Nat.lt_or_eq_of_le (Nat.le_of_lt_succ hi) with hlt | rfl
    · exact Nat.le_trans (Nat.le_of_lt (hmono i mid hmid hlt)) hsmall
    · exact hsmall
  | case2 lo hi bound hlt mid hmid hlarge ih =>
    refine ih (by omega) hlow ?_ hmono
    intro i h hi
    rcases Nat.lt_or_eq_of_le hi with hlt | rfl
    · exact Nat.lt_trans (Nat.lt_of_not_le hlarge) (hmono mid i h hlt)
    · exact Nat.lt_of_not_le hlarge
  | case3 lo hi bound hstop =>
    have heq : lo = hi := by omega
    exact ⟨by omega, hlow, fun i h hi => hhigh i h (heq ▸ hi)⟩

theorem lineOf_partsAt {index : LineIndex} (hsorted : index.starts.toList.Pairwise (· < ·))
    (offset : Nat) : PartsAt index.starts offset (index.lineOf offset) :=
  search_partsAt hsorted offset 0 index.starts.size (Nat.le_refl _) (Nat.zero_le _)
    (fun i _ hi => absurd hi (Nat.not_lt_zero i)) (fun _ h hi => absurd h (Nat.not_lt.mpr hi))

theorem PartsAt.eq_countP {starts : Array Nat} {offset k : Nat} (h : PartsAt starts offset k) :
    k = starts.toList.countP (· ≤ offset) := by
  obtain ⟨hle, hlow, hhigh⟩ := h
  have hbefore : (starts.toList.take k).countP (· ≤ offset) = k := by
    have hall : ∀ start ∈ starts.toList.take k, decide (start ≤ offset) = true := by
      intro start hstart
      obtain ⟨i, hi, rfl⟩ := List.mem_iff_getElem.mp hstart
      rw [List.length_take] at hi
      rw [List.getElem_take]
      have hbound : i < starts.toList.length := by omega
      exact decide_eq_true (hlow i hbound (by omega))
    rw [List.countP_eq_length.mpr hall, List.length_take]
    exact Nat.min_eq_left hle
  have hbehind : (starts.toList.drop k).countP (· ≤ offset) = 0 := by
    refine List.countP_eq_zero.mpr ?_
    intro start hstart
    obtain ⟨i, hi, rfl⟩ := List.mem_iff_getElem.mp hstart
    rw [List.length_drop] at hi
    rw [List.getElem_drop, decide_eq_true_eq, Nat.not_le]
    have hbound : k + i < starts.toList.length := by omega
    exact hhigh (k + i) hbound (by omega)
  calc k = (starts.toList.take k).countP (· ≤ offset) +
        (starts.toList.drop k).countP (· ≤ offset) := by rw [hbefore, hbehind, Nat.add_zero]
    _ = starts.toList.countP (· ≤ offset) := by
      rw [← List.countP_append, List.take_append_drop]

theorem starts_pairwise (text : List Char) :
    (ofChars text).starts.toList.Pairwise (· < ·) :=
  .cons (fun _ => lt_of_mem_startsAfterFeeds) (startsAfterFeeds_pairwise 0 text)

theorem lineOf_ofText_eq (text : String) (offset : Nat) :
    (ofText text).lineOf offset = 1 + feedsBefore text offset := by
  have hstarts : (ofText text).starts.toList = 0 :: startsAfterFeeds 0 text.toList := rfl
  have hsorted : (ofText text).starts.toList.Pairwise (· < ·) := starts_pairwise text.toList
  rw [(lineOf_partsAt hsorted offset).eq_countP, hstarts, List.countP_cons,
    countP_startsAfterFeeds, feedsBefore, toUTF8_eq_flatMap, Nat.sub_zero, Nat.add_comm]
  simp

theorem feedsBefore_mono (text : String) : Monotone (feedsBefore text) := by
  intro a b h
  exact ((List.take_prefix_take_left h).sublist).count_le 10

/-- The line of an offset, also of one behind the end of the text, is one more than the number of
line feeds among the bytes in front of it. It is where the starts of the lines part at the offset,
and they part nowhere else; so any search for that place gives the line. -/
theorem lineOf_counts_feeds (text : String) :
    (∀ offset, (ofText text).lineOf offset = 1 + feedsBefore text offset) ∧
    Monotone (ofText text).lineOf ∧
    (ofText text).starts.toList.Pairwise (· < ·) ∧
    ∀ offset k, PartsAt (ofText text).starts offset k ↔ k = (ofText text).lineOf offset := by
  have hsorted : (ofText text).starts.toList.Pairwise (· < ·) := starts_pairwise text.toList
  refine ⟨lineOf_ofText_eq text, ?_, hsorted, ?_⟩
  · intro a b h
    rw [lineOf_ofText_eq, lineOf_ofText_eq]
    exact Nat.add_le_add_left (feedsBefore_mono text h) 1
  · intro offset k
    have hline := lineOf_partsAt hsorted offset
    constructor
    · intro h
      rw [h.eq_countP, ← hline.eq_countP]
    · rintro rfl
      exact hline

end LineIndex

end Decaf
