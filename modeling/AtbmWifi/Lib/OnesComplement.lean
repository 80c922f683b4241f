import AtbmWifi.Lib.Memory

/-!
# Ones' complement sums

`wordSum` adds the 16-bit words of a part of a buffer, the first byte of each in the low half; a last byte without a
second one counts as if a zero followed.  Sums that leave the same remainder modulo 65535 are the same in ones' complement.
A checksum is patched by adding a word to its complement (`patched`), which takes the word off it.
-/

namespace OnesComplement

variable {m m' : Nat → UInt8} {a n i : Nat}

/-- The word at `2 * i` of the `n` bytes from `a` on. -/
def word (m : Nat → UInt8) (a n i : Nat) : Nat :=
  (m (a + 2 * i)).toNat + 256 * (if 2 * i + 1 < n then (m (a + 2 * i + 1)).toNat else 0)

def wordSum (m : Nat → UInt8) (a n : Nat) : Nat := ((List.range ((n + 1) / 2)).map (word m a n)).sum

/-- The carry is added once. -/
def fold (x : Nat) : Nat := x % 65536 + x / 65536

/-- The complement of the sum of the complement of a checksum and a word. -/
def patched (check w : Nat) : Nat := 65535 - fold (65535 - check + w)

theorem fold_mod (x : Nat) : fold x % 65535 = x % 65535 := by
  unfold fold
  omega

theorem fold_le {x : Nat} (h : x ≤ 131070) : fold x ≤ 65535 := by
  unfold fold
  omega

theorem patched_mod {check w : Nat} (hc : check ≤ 65535) (hw : w ≤ 65535) :
    (patched check w + w) % 65535 = check % 65535 := by
  have hmod := fold_mod (65535 - check + w)
  have hle : fold (65535 - check + w) ≤ 65535 := fold_le (by omega)
  unfold patched
  omega

/-- A checksum of 0 stays 0 only when the word is all ones. -/
theorem patched_zero {w : Nat} (hpos : 0 < w) (hw : w ≤ 65535) : patched 0 w = 65535 - w := by
  unfold patched fold
  omega

theorem sum_replace {f g : Nat → Nat} {j : Nat} (hj : j < n) (h : ∀ k, k < n → k ≠ j → g k = f k) :
    ((List.range n).map g).sum + f j = ((List.range n).map f).sum + g j := by
  induction n with
  | zero => exact absurd hj (Nat.not_lt_zero j)
  | succ n ih =>
    rw [List.range_succ, List.map_append, List.map_append, List.sum_append, List.sum_append]
    simp only [List.map_cons, List.map_nil, List.sum_cons, List.sum_nil, Nat.add_zero]
    by_cases hjn : j = n
    · subst hjn
      have hsame : (List.range j).map g = (List.range j).map f := by
        apply List.map_congr_left
        intro k hk
        have hlt := List.mem_range.mp hk
        exact h k (by omega) (by omega)
      rw [hsame]
      omega
    · have hlast := h n (Nat.lt_succ_self n) (by omega)
      have hrest := ih (by omega) fun k hk hkj => h k (by omega) hkj
      omega

theorem word_congr (h : ∀ x, a ≤ x → x < a + n → m x = m' x) (hi : 2 * i < n) : word m a n i = word m' a n i := by
  unfold word
  rw [h (a + 2 * i) (by omega) (by omega)]
  by_cases hodd : 2 * i + 1 < n
  · rw [if_pos hodd, if_pos hodd, h (a + 2 * i + 1) (by omega) (by omega)]
  · rw [if_neg hodd, if_neg hodd]

theorem wordSum_congr (h : ∀ x, a ≤ x → x < a + n → m x = m' x) : wordSum m a n = wordSum m' a n := by
  unfold wordSum
  congr 1
  apply List.map_congr_left
  intro i hi
  have hlt := List.mem_range.mp hi
  exact word_congr h (by omega)

theorem wordSum_replace (hi : 2 * i < n)
    (h : ∀ x, a ≤ x → x < a + n → x ≠ a + 2 * i → x ≠ a + 2 * i + 1 → m' x = m x) :
    wordSum m' a n + word m a n i = wordSum m a n + word m' a n i := by
  apply sum_replace (by omega)
  intro k hk hki
  unfold word
  rw [h (a + 2 * k) (by omega) (by omega) (by omega) (by omega)]
  by_cases hodd : 2 * k + 1 < n
  · rw [if_pos hodd, if_pos hodd, h (a + 2 * k + 1) (by omega) (by omega) (by omega) (by omega)]
  · rw [if_neg hodd, if_neg hodd]

end OnesComplement
