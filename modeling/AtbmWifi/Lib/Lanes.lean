import Mathlib.Data.Nat.Bitwise
import Mathlib.Tactic.Common

/-!
# Words as lanes

Lane `i` of a word, for lanes of `w` bits, is made of the bits from `w * i` on.

* `lane_put`: a value that is or-ed into one lane leaves the others.
* `lane_lane`: the lanes of a wider lane are lanes of the word.
-/

namespace Lanes

def lane (w i n : Nat) : Nat := (n >>> (w * i)) % 2 ^ w

variable {w : Nat}

theorem lane_lt (i n : Nat) : lane w i n < 2 ^ w := Nat.mod_lt _ (Nat.two_pow_pos w)

theorem testBit_lane (i n b : Nat) : (lane w i n).testBit b = (decide (b < w) && n.testBit (w * i + b)) := by
  rw [lane, Nat.testBit_mod_two_pow, Nat.testBit_shiftRight]

@[simp] theorem lane_zero (i : Nat) : lane w i 0 = 0 := by
  rw [lane, Nat.zero_shiftRight, Nat.zero_mod]

theorem lane_or (i m n : Nat) : lane w i (m ||| n) = lane w i m ||| lane w i n := by
  apply Nat.eq_of_testBit_eq
  intro b
  rw [Nat.testBit_or, testBit_lane, testBit_lane, testBit_lane, Nat.testBit_or, Bool.and_or_distrib_left]

theorem lane_shiftLeft {r : Nat} (hr : r < 2 ^ w) (i j : Nat) :
    lane w i (r <<< (w * j)) = if i = j then r else 0 := by
  apply Nat.eq_of_testBit_eq
  intro b
  rw [testBit_lane, Nat.testBit_shiftLeft]
  rcases Nat.lt_trichotomy i j with h | rfl | h
  · -- the bits of lane `i` are below those of lane `j`
    have hle : w * i + w ≤ w * j := by
      rw [← Nat.mul_succ]
      exact Nat.mul_le_mul_left w h
    rw [if_neg (by omega), Nat.zero_testBit]
    by_cases hb : b < w
    · simp [show ¬ w * j ≤ w * i + b by omega]
    · simp [hb]
  · rw [if_pos rfl, Nat.add_sub_cancel_left]
    by_cases hb : b < w
    · simp [hb]
    · have hlt : r < 2 ^ b := Nat.lt_of_lt_of_le hr (Nat.pow_le_pow_right (by omega) (by omega))
      simp [hb, Nat.testBit_lt_two_pow hlt]
  · -- beyond the bits of `r`
    have hle : w * j + w ≤ w * i := by
      rw [← Nat.mul_succ]
      exact Nat.mul_le_mul_left w h
    have hlt : r < 2 ^ (w * i + b - w * j) := Nat.lt_of_lt_of_le hr (Nat.pow_le_pow_right (by omega) (by omega))
    rw [if_neg (by omega), Nat.zero_testBit, Nat.testBit_lt_two_pow hlt, Bool.and_false, Bool.and_false]

theorem lane_put {r : Nat} (hr : r < 2 ^ w) (i j n : Nat) :
    lane w i (n ||| r <<< (w * j)) = if i = j then lane w i n ||| r else lane w i n := by
  rw [lane_or, lane_shiftLeft hr]
  split
  · rfl
  · rw [Nat.or_zero]

theorem lane_lane {m j : Nat} (hj : j < m) (i n : Nat) : lane w j (lane (w * m) i n) = lane w (m * i + j) n := by
  apply Nat.eq_of_testBit_eq
  intro b
  rw [testBit_lane, testBit_lane, testBit_lane]
  by_cases hb : b < w
  · have hle : w * j + w ≤ w * m := by
      rw [← Nat.mul_succ]
      exact Nat.mul_le_mul_left w hj
    have heq : w * m * i + (w * j + b) = w * (m * i + j) + b := by
      rw [Nat.mul_add, Nat.mul_assoc]
      omega
    rw [heq, decide_eq_true (show w * j + b < w * m by omega), Bool.true_and]
  · simp [hb]

end Lanes
