import Mathlib.Tactic.Common

/-!
# Bit masks as sets

A mask is a `BitVec`; `i` is in it when bit `i` is set.  `bit w i` is the mask of one
element, `Sub` the inclusion and `card` the number of elements.  The simp lemmas turn membership in the results of the
usual operations into membership in their arguments.
-/

namespace Mask

variable {w : Nat}

/-- The mask of `i` alone. -/
def bit (w i : Nat) : BitVec w := 1#w <<< i

/-- Every element of `m` is one of `n`. -/
def Sub (m n : BitVec w) : Prop := ∀ i, m.getLsbD i = true → n.getLsbD i = true

@[simp] theorem getLsbD_bit (i j : Nat) : (bit w i).getLsbD j = (decide (j < w) && decide (i = j)) := by
  unfold bit
  rw [BitVec.getLsbD_shiftLeft, BitVec.getLsbD_one]
  by_cases hj : j < w
  · by_cases hij : i = j
    · subst hij
      simp [hj, Nat.zero_lt_of_lt hj]
    · by_cases hlt : j < i
      · simp [hj, hij, hlt]
      · have hne : ¬j - i = 0 := by omega
        simp [hj, hij, hlt, hne]
  · simp [hj]

theorem getLsbD_insert (m : BitVec w) (i j : Nat) :
    (m ||| bit w i).getLsbD j = (m.getLsbD j || (decide (j < w) && decide (i = j))) := by
  rw [BitVec.getLsbD_or, getLsbD_bit]

theorem getLsbD_erase (m : BitVec w) (i j : Nat) :
    (m &&& ~~~bit w i).getLsbD j = (m.getLsbD j && !decide (i = j)) := by
  rw [BitVec.getLsbD_and, BitVec.getLsbD_not, getLsbD_bit]
  by_cases hj : j < w
  · simp only [hj, decide_true, Bool.true_and]
  · rw [BitVec.getLsbD_of_ge m j (by omega), Bool.false_and, Bool.false_and]

theorem eq_zero_iff (m : BitVec w) : m = 0#w ↔ ∀ i, m.getLsbD i = false := by
  constructor
  · rintro rfl i
    exact BitVec.getLsbD_zero
  · intro h
    apply BitVec.eq_of_getLsbD_eq
    intro i _
    rw [h i, BitVec.getLsbD_zero]

/-- The test `m & BIT(i)`. -/
theorem and_bit_eq_zero (m : BitVec w) {i : Nat} (hi : i < w) :
    m &&& bit w i = 0#w ↔ m.getLsbD i = false := by
  rw [eq_zero_iff]
  constructor
  · intro h
    have hbit := h i
    rwa [BitVec.getLsbD_and, getLsbD_bit, decide_eq_true hi, decide_eq_true rfl, Bool.and_true,
      Bool.and_true] at hbit
  · intro h j
    rw [BitVec.getLsbD_and, getLsbD_bit]
    by_cases hij : i = j
    · rw [← hij, h, Bool.false_and]
    · rw [decide_eq_false hij, Bool.and_false, Bool.and_false]

theorem Sub.refl (m : BitVec w) : Sub m m := fun _ h => h

theorem Sub.zero (m : BitVec w) : Sub 0#w m := by
  intro i h
  rw [BitVec.getLsbD_zero] at h
  cases h

theorem Sub.eq_zero {m : BitVec w} (h : Sub m 0#w) : m = 0#w := by
  rw [eq_zero_iff]
  intro i
  by_contra hi
  have := h i (by simpa using hi)
  simp at this

theorem Sub.and_left {m n : BitVec w} (h : Sub m n) (k : BitVec w) : Sub (m &&& k) n := by
  intro i hi
  rw [BitVec.getLsbD_and, Bool.and_eq_true] at hi
  exact h i hi.1

theorem Sub.or_right {m n : BitVec w} (h : Sub m n) (k : BitVec w) : Sub m (n ||| k) := by
  intro i hi
  rw [BitVec.getLsbD_or, h i hi]
  rfl

theorem Sub.insert {m n : BitVec w} (h : Sub m n) {i : Nat} (hi : n.getLsbD i = true) :
    Sub (m ||| bit w i) n := by
  intro j hj
  rw [getLsbD_insert, Bool.or_eq_true] at hj
  rcases hj with hj | hj
  · exact h j hj
  · simp only [Bool.and_eq_true, decide_eq_true_eq] at hj
    rw [← hj.2]
    exact hi

theorem Sub.erase {m n : BitVec w} (h : Sub m n) (i : Nat) : Sub (m &&& ~~~bit w i) (n &&& ~~~bit w i) := by
  intro j hj
  rw [getLsbD_erase, Bool.and_eq_true] at hj ⊢
  exact ⟨h j hj.1, hj.2⟩

theorem countP_range_insert {p q : Nat → Bool} {n i : Nat} (hi : i < n) (hp : p i = false) (hq : q i = true)
    (h : ∀ j, j ≠ i → q j = p j) : (List.range n).countP q = (List.range n).countP p + 1 := by
  induction n with
  | zero => omega
  | succ n ih =>
    rw [List.range_succ, List.countP_append, List.countP_append, List.countP_singleton, List.countP_singleton]
    by_cases hn : i = n
    · have hsame : (List.range n).countP q = (List.range n).countP p := by
        apply List.countP_congr
        intro j hj
        have hlt := List.mem_range.mp hj
        rw [h j (by omega)]
      rw [hsame, ← hn, hp, hq]
      rfl
    · have := ih (by omega)
      rw [h n (by omega)]
      omega

/-- The number of elements. -/
def card (m : BitVec w) : Nat := (List.range w).countP m.getLsbD

theorem card_insert {m : BitVec w} {i : Nat} (hi : i < w) (hm : m.getLsbD i = false) :
    card (m ||| bit w i) = card m + 1 := by
  apply countP_range_insert hi hm
  · rw [getLsbD_insert]
    simp [hi]
  · intro j hj
    rw [getLsbD_insert, decide_eq_false (Ne.symm hj), Bool.and_false, Bool.or_false]

theorem card_erase {m : BitVec w} {i : Nat} (hi : i < w) (hm : m.getLsbD i = true) :
    card m = card (m &&& ~~~bit w i) + 1 := by
  apply countP_range_insert hi
  · rw [getLsbD_erase]
    simp
  · exact hm
  · intro j hj
    rw [getLsbD_erase, decide_eq_false (Ne.symm hj), Bool.not_false, Bool.and_true]

end Mask
