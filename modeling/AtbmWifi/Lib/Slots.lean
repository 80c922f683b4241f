import Mathlib.Data.BitVec
import Mathlib.Data.List.Nodup
import Mathlib.Data.List.Perm.Basic
import Mathlib.Algebra.BigOperators.Group.List.Basic

/-!
# Slots on three lists

A pool of `n` slots is kept on three lists, each slot on exactly one of them
(`Partition`).  Moving a slot from one list to another, or from wherever it is,
keeps this; so does moving every slot a predicate selects.  The lists are then
disjoint and duplicate free, and their lengths add up to `n`.

Counting lemmas: erasing a member, and summing a count over the values of a
second key.
-/

namespace Slots

/-- Each slot below `n` is on exactly one of the lists, once, and nothing else is. -/
def Partition (n : Nat) (a b c : List Nat) : Prop :=
  ∀ k, a.count k + b.count k + c.count k = if k < n then 1 else 0

namespace Partition

theorem start (n : Nat) : Partition n (List.range n) [] [] := by
  intro k
  by_cases h : k < n
  · simp [h, List.nodup_iff_count_eq_one.mp List.nodup_range k (List.mem_range.mpr h)]
  · simp [h]

variable {n k : Nat} {a b c : List Nat} (h : Partition n a b c)
include h

/-! ## What a partition says about its lists -/

theorem lt_of_mem (hk : k ∈ a ∨ k ∈ b ∨ k ∈ c) : k < n := by
  have := h k
  by_contra hn
  rw [if_neg hn] at this
  rcases hk with hk | hk | hk <;> have := List.count_pos_iff.mpr hk <;> omega

theorem count_le_one : a.count k + b.count k + c.count k ≤ 1 := by
  rw [h k]
  split <;> omega

theorem not_mem_second_of_first (hk : k ∈ a) : k ∉ b := fun hb => by
  have := h.count_le_one (k := k)
  have := List.count_pos_iff.mpr hk
  have := List.count_pos_iff.mpr hb
  omega

theorem not_mem_third_of_first (hk : k ∈ a) : k ∉ c := fun hc => by
  have := h.count_le_one (k := k)
  have := List.count_pos_iff.mpr hk
  have := List.count_pos_iff.mpr hc
  omega

theorem not_mem_third_of_second (hk : k ∈ b) : k ∉ c := fun hc => by
  have := h.count_le_one (k := k)
  have := List.count_pos_iff.mpr hk
  have := List.count_pos_iff.mpr hc
  omega

theorem nodup_second : b.Nodup :=
  List.nodup_iff_count_le_one.mpr fun k => by
    have := h.count_le_one (k := k)
    omega

theorem nodup_third : c.Nodup :=
  List.nodup_iff_count_le_one.mpr fun k => by
    have := h.count_le_one (k := k)
    omega

theorem perm : (a ++ b ++ c).Perm (List.range n) := by
  rw [List.perm_iff_count]
  intro k
  rw [List.count_append, List.count_append, h k]
  have := start n k
  simp only [List.count_nil, Nat.add_zero] at this
  exact this.symm

theorem length_add : a.length + b.length + c.length = n := by
  have := h.perm.length_eq
  rwa [List.length_append, List.length_append, List.length_range] at this

theorem first_to_second (hk : k ∈ a) : Partition n (a.erase k) (b ++ [k]) c := by
  intro j
  have hj := h j
  have ha := List.count_pos_iff.mpr hk
  rw [List.count_erase, List.count_append, List.count_singleton]
  by_cases hjk : k = j
  · subst hjk
    simp
    omega
  · simpa [hjk] using hj

theorem second_to_third (hk : k ∈ b) : Partition n a (b.erase k) (c ++ [k]) := by
  intro j
  have hj := h j
  have hb := List.count_pos_iff.mpr hk
  rw [List.count_erase, List.count_append, List.count_singleton]
  by_cases hjk : k = j
  · subst hjk
    simp
    omega
  · simpa [hjk] using hj

theorem second_to_first (hk : k ∈ b) : Partition n (a ++ [k]) (b.erase k) c := by
  intro j
  have hj := h j
  have hb := List.count_pos_iff.mpr hk
  rw [List.count_erase, List.count_append, List.count_singleton]
  by_cases hjk : k = j
  · subst hjk
    simp
    omega
  · simpa [hjk] using hj

/-- A slot taken from whichever list holds it, to the head of the first. -/
theorem to_first (hk : k < n) : Partition n (k :: a.erase k) (b.erase k) (c.erase k) := by
  intro j
  have hj := h j
  rw [List.count_cons, List.count_erase, List.count_erase, List.count_erase]
  by_cases hjk : k = j
  · subst hjk
    simp only [hk, if_true] at hj ⊢
    simp
    omega
  · simpa [hjk] using hj

/-- A slot taken from whichever list holds it, to the head of the second. -/
theorem to_second (hk : k < n) : Partition n (a.erase k) (k :: b.erase k) (c.erase k) := by
  intro j
  have hj := h j
  rw [List.count_cons, List.count_erase, List.count_erase, List.count_erase]
  by_cases hjk : k = j
  · subst hjk
    simp only [hk, if_true] at hj ⊢
    simp
    omega
  · simpa [hjk] using hj

/-- The selected slots of the last two lists moved to the end of the first. -/
theorem filter_to_first (p : Nat → Bool) :
    Partition n (a ++ c.filter p ++ b.filter p) (b.filter fun k => !p k) (c.filter fun k => !p k) := by
  intro j
  have split : ∀ l : List Nat, (l.filter p).count j + (l.filter fun k => !p k).count j = l.count j := by
    intro l
    have := List.countP_eq_countP_filter_add l (· == j) p
    rw [List.count_eq_countP, List.count_eq_countP, List.count_eq_countP, this]
  have hj := h j
  have hb := split b
  have hc := split c
  rw [List.count_append, List.count_append]
  omega

end Partition

theorem countP_erase_add {α : Type} [DecidableEq α] {k : α} {l : List α} (p : α → Bool) (hk : k ∈ l) :
    (l.erase k).countP p + (if p k then 1 else 0) = l.countP p := by
  have := (List.perm_cons_erase hk).countP_eq p
  rw [this, List.countP_cons]

/-- Counting by a key and by the values of a second key that stays below `m`. -/
theorem sum_countP_eq (m : Nat) (l : List Nat) (p : Nat → Bool) (g : Nat → Nat)
    (hg : ∀ k ∈ l, g k < m) :
    ((List.range m).map fun v => l.countP fun k => p k && g k == v).sum = l.countP p := by
  induction l with
  | nil => simp
  | cons k l ih =>
    have one : ((List.range m).map fun v => if (p k && g k == v) = true then 1 else 0).sum =
        if p k = true then 1 else 0 := by
      cases hp : p k
      · simp
      · have hgk := hg k List.mem_cons_self
        have : ∀ m, g k < m →
            ((List.range m).map fun v => if (true && g k == v) = true then 1 else 0).sum = 1 := by
          intro m hm
          induction m with
          | zero => omega
          | succ m ihm =>
            rw [List.range_succ, List.map_append, List.sum_append]
            rcases Nat.lt_succ_iff_lt_or_eq.mp hm with hlt | heq
            · rw [ihm hlt]
              simp [Nat.ne_of_lt hlt]
            · have : ((List.range m).map fun v => if (true && g k == v) = true then 1 else 0).sum = 0 := by
                apply List.sum_eq_zero
                intro x hx
                obtain ⟨v, hv, rfl⟩ := List.mem_map.mp hx
                have := List.mem_range.mp hv
                simp
                omega
              rw [this]
              simp [heq]
        simpa using this m hgk
    have ih := ih fun j hj => hg j (List.mem_cons_of_mem _ hj)
    simp only [List.countP_cons]
    rw [List.sum_map_add, ih, one]

end Slots
