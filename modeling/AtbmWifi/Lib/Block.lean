import Mathlib.Tactic.Common

/-!
# Blocks of memory as lists

A block is the list of its cells.  A write outside it is lost, since what it hits
is not part of the block; a block that is made larger has new cells with an
unknown content.
-/

namespace Block

variable {α : Type}

/-- The block after a copy of `bytes` to offset `pos`. -/
def overwrite (mem : List α) (pos : Nat) (bytes : List α) : List α :=
  (mem.take pos ++ bytes ++ mem.drop (pos + bytes.length)).take mem.length

/-- The block after it is moved to one of `n` cells; the new ones are `fresh`. -/
def resize (fresh : α) (n : Nat) (mem : List α) : List α :=
  mem.take n ++ List.replicate (n - mem.length) fresh

@[simp] theorem length_resize (fresh : α) (n : Nat) (mem : List α) :
    (resize fresh n mem).length = n := by
  simp only [resize, List.length_append, List.length_take, List.length_replicate]
  omega

@[simp] theorem length_overwrite (mem : List α) (pos : Nat) (bytes : List α) :
    (overwrite mem pos bytes).length = mem.length := by
  simp only [overwrite, List.length_take, List.length_append, List.length_drop]
  omega

theorem resize_of_le {fresh : α} {n : Nat} {mem : List α} (h : mem.length ≤ n) :
    resize fresh n mem = mem ++ List.replicate (n - mem.length) fresh := by
  rw [resize, List.take_of_length_le h]

theorem getElem?_resize (fresh : α) (n i : Nat) (mem : List α) :
    (resize fresh n mem)[i]? = if i < n then some (mem[i]?.getD fresh) else none := by
  split
  · next hn =>
    by_cases hi : i < mem.length
    · rw [resize, List.getElem?_append_left (by rw [List.length_take]; omega),
        List.getElem?_take_of_lt hn, List.getElem?_eq_getElem hi]
      rfl
    · rw [resize, List.getElem?_append_right (by rw [List.length_take]; omega), List.getElem?_replicate,
        if_pos (by rw [List.length_take]; omega), List.getElem?_eq_none (by omega)]
      rfl
  · next hn => exact List.getElem?_eq_none (by rw [length_resize]; omega)

theorem getElem?_overwrite_before {mem : List α} {pos i : Nat} {bytes : List α} (hi : i < pos) :
    (overwrite mem pos bytes)[i]? = mem[i]? := by
  by_cases hm : i < mem.length
  · rw [overwrite, List.getElem?_take_of_lt hm, List.append_assoc,
      List.getElem?_append_left (by rw [List.length_take]; omega), List.getElem?_take_of_lt hi]
  · rw [List.getElem?_eq_none (by rw [length_overwrite]; omega), List.getElem?_eq_none (by omega)]

theorem getElem?_overwrite_after {mem : List α} {pos i : Nat} {bytes : List α}
    (hi : pos + bytes.length ≤ i) : (overwrite mem pos bytes)[i]? = mem[i]? := by
  by_cases hm : i < mem.length
  · have hlen : (mem.take pos ++ bytes).length = pos + bytes.length := by
      rw [List.length_append, List.length_take]
      omega
    rw [overwrite, List.getElem?_take_of_lt hm, List.getElem?_append_right (by omega), hlen,
      List.getElem?_drop]
    congr 1
    omega
  · rw [List.getElem?_eq_none (by rw [length_overwrite]; omega), List.getElem?_eq_none (by omega)]

theorem overwrite_append {h rest bytes : List α} (hb : bytes.length ≤ rest.length) :
    overwrite (h ++ rest) h.length bytes = h ++ bytes ++ rest.drop bytes.length := by
  have hd : (h ++ rest).drop (h.length + bytes.length) = rest.drop bytes.length := by
    rw [List.drop_append, List.drop_eq_nil_of_le (by omega)]
    simp
  rw [overwrite, List.take_left, hd]
  apply List.take_of_length_le
  simp only [List.length_append, List.length_drop]
  omega

theorem overwrite_front {h rest bytes : List α} (hb : bytes.length = h.length) :
    overwrite (h ++ rest) 0 bytes = bytes ++ rest := by
  have hover := @overwrite_append α [] (h ++ rest) bytes
    (by rw [List.length_append]; omega)
  rw [List.nil_append, List.nil_append, List.length_nil] at hover
  rw [hover, hb, List.drop_left]

end Block
