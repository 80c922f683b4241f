import Mathlib.Data.BitVec
import Mathlib.Data.List.GetD

/-!
# Buffers of bytes

A buffer is a function from offsets to bytes; `read`, `write` and `move` are what `memcmp`, `memcpy` and
`memmove` do to it.  `setAt` changes a function at one point; unlike `Function.update` it has no cast, so that it
can be evaluated at a point that is itself computed.
-/

namespace Memory

/-- `n` bytes from `a` on. -/
def read (m : Nat → UInt8) (a n : Nat) : List UInt8 := (List.range n).map fun i => m (a + i)

def write (m : Nat → UInt8) (a : Nat) (bs : List UInt8) : Nat → UInt8 :=
  fun x => if a ≤ x ∧ x < a + bs.length then bs.getD (x - a) 0 else m x

/-- `memmove(dst, src, n)` -/
def move (m : Nat → UInt8) (dst src n : Nat) : Nat → UInt8 := write m dst (read m src n)

/-- The function with another value at `i`. -/
def setAt {ι α : Type} [DecidableEq ι] (f : ι → α) (i : ι) (v : α) : ι → α := fun j => if j = i then v else f j

@[simp] theorem setAt_self {ι α : Type} [DecidableEq ι] (f : ι → α) (i : ι) (v : α) : setAt f i v i = v := if_pos rfl

theorem setAt_of_ne {ι α : Type} [DecidableEq ι] {i j : ι} (h : j ≠ i) (f : ι → α) (v : α) : setAt f i v j = f j :=
  if_neg h

variable {m m' : Nat → UInt8} {a b n x : Nat} {bs : List UInt8}

@[simp] theorem length_read (m : Nat → UInt8) (a n : Nat) : (read m a n).length = n := by
  unfold read
  rw [List.length_map, List.length_range]

@[simp] theorem getElem_read {i : Nat} (h : i < (read m a n).length) : (read m a n)[i] = m (a + i) := by
  simp [read]

theorem read_congr (h : ∀ x, a ≤ x → x < a + n → m x = m' x) : read m a n = read m' a n := by
  unfold read
  apply List.map_congr_left
  intro i hi
  have hlt := List.mem_range.mp hi
  exact h (a + i) (Nat.le_add_right a i) (by omega)

theorem read_add (m : Nat → UInt8) (a n k : Nat) : read m a (n + k) = read m a n ++ read m (a + n) k := by
  unfold read
  rw [List.range_add, List.map_append, List.map_map]
  congr 1
  apply List.map_congr_left
  intro i _
  show m (a + (n + i)) = m (a + n + i)
  rw [Nat.add_assoc]

theorem read_succ (m : Nat → UInt8) (a n : Nat) : read m a (n + 1) = m a :: read m (a + 1) n := by
  rw [Nat.add_comm n 1, read_add]
  rfl

theorem read_prefix {k : Nat} (h : k ≤ n) : read m a k <+: read m a n := by
  obtain ⟨j, rfl⟩ := Nat.exists_eq_add_of_le h
  rw [read_add]
  exact List.prefix_append _ _

theorem take_drop_read {i j : Nat} (h : i + j ≤ n) : ((read m a n).drop i).take j = read m (a + i) j := by
  obtain ⟨k, rfl⟩ := Nat.exists_eq_add_of_le h
  rw [Nat.add_assoc, read_add, List.drop_left' (length_read _ _ _), read_add, List.take_left' (length_read _ _ _)]

theorem take_read {j : Nat} (h : j ≤ n) : (read m a n).take j = read m a j := by
  have hpart := @take_drop_read m a n 0 j (by rwa [Nat.zero_add])
  rwa [List.drop_zero, Nat.add_zero] at hpart

theorem getD_read (h : x < n) : (read m a n).getD x 0 = m (a + x) := by
  rw [List.getD_eq_getElem _ _ (by rwa [length_read]), getElem_read]

theorem write_apart (h : x < a ∨ a + bs.length ≤ x) : write m a bs x = m x := by
  unfold write
  rw [if_neg (by omega)]

theorem write_at (h : x < bs.length) : write m a bs (a + x) = bs.getD x 0 := by
  unfold write
  rw [if_pos (by omega), Nat.add_sub_cancel_left]

theorem read_write_self : read (write m a bs) a bs.length = bs := by
  apply List.ext_getElem
  · exact length_read _ _ _
  · intro i hi hj
    rw [getElem_read, write_at hj, List.getD_eq_getElem _ _ hj]

theorem read_write_apart (h : a + n ≤ b ∨ b + bs.length ≤ a) : read (write m b bs) a n = read m a n := by
  apply read_congr
  intro x hx hx'
  exact write_apart (by omega)

theorem write_comm {cs : List UInt8} (h : a + bs.length ≤ b ∨ b + cs.length ≤ a) :
    write (write m a bs) b cs = write (write m b cs) a bs := by
  funext x
  by_cases ha : a ≤ x ∧ x < a + bs.length
  · have hb : x < b ∨ b + cs.length ≤ x := by omega
    rw [write_apart hb]
    unfold write
    rw [if_pos ha, if_pos ha]
  · have hapart : x < a ∨ a + bs.length ≤ x := by omega
    rw [write_apart hapart]
    by_cases hb : b ≤ x ∧ x < b + cs.length
    · unfold write
      rw [if_pos hb, if_pos hb]
    · have hout : x < b ∨ b + cs.length ≤ x := by omega
      rw [write_apart hout, write_apart hapart, write_apart hout]

theorem move_apart {dst src : Nat} (h : x < dst ∨ dst + n ≤ x) : move m dst src n x = m x := by
  unfold move
  exact write_apart (by rwa [length_read])

theorem move_at {dst src : Nat} (h : x < n) : move m dst src n (dst + x) = m (src + x) := by
  unfold move
  rw [write_at (by rwa [length_read]), getD_read h]

theorem read_move {dst src k : Nat} (h : k ≤ n) : read (move m dst src n) dst k = read m src k := by
  unfold read
  apply List.map_congr_left
  intro i hi
  have hlt := List.mem_range.mp hi
  exact move_at (by omega)

theorem read_move_before {dst src k : Nat} (h : a + k ≤ dst) : read (move m dst src n) a k = read m a k :=
  read_congr fun _ _ hx => move_apart (.inl (by omega))

end Memory
