import Mathlib.Data.List.Nodup
import Mathlib.Data.List.Range
import Mathlib.Data.Nat.ModEq

/-!
# Stretches on a ring

A ring has `n` cells.  A stretch is some cells one after the other that do not go over the
end.  `Laid n f l a` says that the stretches `l` follow each other on the ring from cell `f`
to cell `a`.

* `Laid.cells_eq`: their cells are the next `total l` cells from `f` on.
* `Laid.nodup`: they are disjoint if they have not more than `n` cells.
* `meet_iff`: the two ends of all stretches are at one cell if there are none or `n` cells.
* `Laid.last_cases`: on which side of the end the last stretch and the others are.
* `laid_append`, `Laid.push`, `Laid.grow`: a stretch is put behind the others, and the last
  one gets longer.
-/

namespace RingBuf

structure Stretch where
  start : Nat
  cnt : Nat
  deriving DecidableEq, Repr

def Stretch.cells (s : Stretch) : List Nat := List.range' s.start s.cnt

/-- The cell after the last is the first. -/
def wrap (n x : Nat) : Nat := if n ≤ x then 0 else x

def Laid (n : Nat) : Nat → List Stretch → Nat → Prop
  | f, [], a => a = f
  | f, s :: l, a => s.start = f ∧ 0 < s.cnt ∧ f + s.cnt ≤ n ∧ Laid n (wrap n (f + s.cnt)) l a

def total (l : List Stretch) : Nat := (l.map Stretch.cnt).sum

/-- `k` cells from `f` on. -/
def cells (n f k : Nat) : List Nat := (List.range k).map fun j => (f + j) % n

variable {n f a k : Nat} {l l' : List Stretch}

theorem wrap_lt (hn : 0 < n) (x : Nat) : wrap n x < n := by
  unfold wrap
  split <;> omega

theorem wrap_eq_mod (hn : 0 < n) {x : Nat} (hx : x ≤ n) : wrap n x = x % n := by
  unfold wrap
  split
  · next h =>
    obtain rfl : x = n := by omega
    rw [Nat.mod_self]
  · next h => rw [Nat.mod_eq_of_lt (by omega)]

theorem total_nil : total [] = 0 := rfl

theorem total_cons (s : Stretch) (l : List Stretch) : total (s :: l) = s.cnt + total l := rfl

theorem total_append : total (l ++ l') = total l + total l' := by
  unfold total
  rw [List.map_append, List.sum_append]

theorem meet_iff (hf : f < n) (hk : k ≤ n) : (f + k) % n = f ↔ k = 0 ∨ k = n := by
  constructor
  · intro heq
    have hmod : (f + k) % n = (f + 0) % n := by rw [heq, Nat.add_zero, Nat.mod_eq_of_lt hf]
    have hzero : k % n = 0 % n := Nat.ModEq.add_left_cancel' f hmod
    rw [Nat.zero_mod] at hzero
    by_cases hlt : k < n
    · rw [Nat.mod_eq_of_lt hlt] at hzero
      exact .inl hzero
    · exact .inr (by omega)
  · rintro (rfl | rfl)
    · rw [Nat.add_zero, Nat.mod_eq_of_lt hf]
    · rw [Nat.add_mod_right, Nat.mod_eq_of_lt hf]

theorem cells_add (n f j k : Nat) : cells n f (j + k) = cells n f j ++ cells n ((f + j) % n) k := by
  unfold cells
  rw [List.range_add, List.map_append, List.map_map]
  congr 1
  apply List.map_congr_left
  intro i _
  show (f + (j + i)) % n = ((f + j) % n + i) % n
  rw [Nat.mod_add_mod, Nat.add_assoc]

theorem cells_nodup (hk : k ≤ n) : (cells n f k).Nodup := by
  apply List.Nodup.map_on _ List.nodup_range
  intro i hi j hj h
  rw [List.mem_range] at hi hj
  have hmod : i % n = j % n := Nat.ModEq.add_left_cancel' f h
  rwa [Nat.mod_eq_of_lt (by omega), Nat.mod_eq_of_lt (by omega)] at hmod

theorem Stretch.cells_eq {s : Stretch} (h : s.start + s.cnt ≤ n) : s.cells = RingBuf.cells n s.start s.cnt := by
  unfold Stretch.cells RingBuf.cells
  rw [List.range'_eq_map_range]
  apply List.map_congr_left
  intro j hj
  rw [List.mem_range] at hj
  exact (Nat.mod_eq_of_lt (by omega)).symm

theorem laid_append : Laid n f (l ++ l') a ↔ ∃ b, Laid n f l b ∧ Laid n b l' a := by
  induction l generalizing f with
  | nil => exact ⟨fun h => ⟨f, rfl, h⟩, fun ⟨b, hb, h⟩ => hb ▸ h⟩
  | cons s l ih =>
    constructor
    · rintro ⟨hs, hc, hle, h⟩
      obtain ⟨b, hb, hb'⟩ := ih.mp h
      exact ⟨b, ⟨hs, hc, hle, hb⟩, hb'⟩
    · rintro ⟨b, ⟨hs, hc, hle, hb⟩, hb'⟩
      exact ⟨hs, hc, hle, ih.mpr ⟨b, hb, hb'⟩⟩

namespace Laid

theorem end_eq (hf : f < n) (h : Laid n f l a) : a = (f + total l) % n := by
  induction l generalizing f with
  | nil => rw [show a = f from h, total_nil, Nat.add_zero, Nat.mod_eq_of_lt hf]
  | cons s l ih =>
    obtain ⟨-, -, hle, h⟩ := h
    rw [ih (wrap_lt (by omega) _) h, wrap_eq_mod (by omega) hle, total_cons, Nat.mod_add_mod, Nat.add_assoc]

theorem cells_eq (hf : f < n) (h : Laid n f l a) : l.flatMap Stretch.cells = cells n f (total l) := by
  induction l generalizing f with
  | nil => rfl
  | cons s l ih =>
    obtain ⟨hs, -, hle, h⟩ := h
    subst hs
    rw [List.flatMap_cons, ih (wrap_lt (by omega) _) h, Stretch.cells_eq hle, total_cons, cells_add,
      wrap_eq_mod (by omega) hle]

theorem nodup (hf : f < n) (h : Laid n f l a) (ht : total l ≤ n) : (l.flatMap Stretch.cells).Nodup := by
  rw [h.cells_eq hf]
  exact cells_nodup ht

theorem total_pos (h : Laid n f l a) (hl : l ≠ []) : 0 < total l := by
  cases l with
  | nil => exact absurd rfl hl
  | cons s l =>
    rw [total_cons]
    have := h.2.1
    omega

/-- A stretch with others before it and cells of its own does not start where the first one does. -/
theorem start_ne {s : Stretch} (hf : f < n) (h : Laid n f (l ++ s :: l') a) (ht : total (l ++ s :: l') ≤ n)
    (hl : l ≠ []) : s.start ≠ f := by
  obtain ⟨b, hb, hs, hc, -⟩ := laid_append.mp h
  have hpos := hb.total_pos hl
  rw [total_append, total_cons] at ht
  rw [hs, hb.end_eq hf]
  intro heq
  have := (meet_iff hf (by omega)).mp heq
  omega

theorem push (h : Laid n f l a) (ha : a < n) : Laid n f (l ++ [⟨a, 1⟩]) (wrap n (a + 1)) :=
  laid_append.mpr ⟨a, h, rfl, Nat.one_pos, ha, rfl⟩

theorem grow {s c : Nat} (h : Laid n f (l ++ [⟨s, c⟩]) a) (hc : s + c < n) :
    a = s + c ∧ Laid n f (l ++ [⟨s, c + 1⟩]) (wrap n (a + 1)) := by
  obtain ⟨b, hb, hs, hpos, hle, ha⟩ := laid_append.mp h
  simp only at hs hpos hle ha
  have ha : a = s + c := by
    rw [show a = _ from ha, ← hs, wrap, if_neg (by omega)]
  subst ha
  refine ⟨rfl, laid_append.mpr ⟨b, hb, hs, Nat.succ_pos _, ?_, ?_⟩⟩
  · simp only
    omega
  · show wrap n (s + c + 1) = wrap n (b + (c + 1))
    rw [← hs, Nat.add_assoc]

theorem mem_offset {s : Stretch} (hf : f < n) (h : Laid n f l a) (hs : s ∈ l) :
    ∃ d, d + s.cnt ≤ total l ∧ s.start = (f + d) % n ∧ s.start + s.cnt ≤ n := by
  induction l generalizing f with
  | nil => cases hs
  | cons t l ih =>
    obtain ⟨ht, -, hle, h⟩ := h
    rw [total_cons]
    rcases List.mem_cons.mp hs with rfl | hs
    · exact ⟨0, by omega, by rw [ht, Nat.add_zero, Nat.mod_eq_of_lt hf], by omega⟩
    · obtain ⟨d, hd, hstart, hend⟩ := ih (wrap_lt (by omega) _) h hs
      refine ⟨t.cnt + d, by omega, ?_, hend⟩
      rw [hstart, wrap_eq_mod (by omega) hle, Nat.mod_add_mod, Nat.add_assoc]

/-- The last stretch is where the pointer of the free cells comes to, and the others do not come past it:
they are between the first cell and the last stretch, on this side of the end or over it. -/
theorem last_cases {s t : Stretch} (hf : f < n) (h : Laid n f (l ++ [s]) a) (hle : total (l ++ [s]) ≤ n) (ht : t ∈ l) :
    f < s.start ∧ f ≤ t.start ∧ t.start + t.cnt ≤ s.start ∨
      s.start + s.cnt ≤ f ∧ (t.start + t.cnt ≤ s.start ∨ f ≤ t.start) := by
  obtain ⟨b, hb, hs, hpos, hsle, -⟩ := laid_append.mp h
  rw [total_append, total_cons, total_nil] at hle
  have htot := hb.total_pos (List.ne_nil_of_mem ht)
  rw [hb.end_eq hf] at hs
  obtain ⟨d, hd, htstart, htend⟩ := hb.mem_offset hf ht
  by_cases hend : f + total l < n
  · rw [Nat.mod_eq_of_lt hend] at hs
    rw [Nat.mod_eq_of_lt (by omega)] at htstart
    left
    omega
  · rw [Nat.mod_eq_sub_mod (by omega), Nat.mod_eq_of_lt (by omega)] at hs
    right
    by_cases hover : f + d < n
    · rw [Nat.mod_eq_of_lt hover] at htstart
      omega
    · rw [Nat.mod_eq_sub_mod (by omega), Nat.mod_eq_of_lt (by omega)] at htstart
      omega

end Laid

end RingBuf
